/-
# How `drive_client` fails (`tcp-tunnel/src/lib.rs` and `src/bin/client.rs`)

`tunnel_one` tells from the error of `drive_client` whether the gateway connection was
lost or the handshake on it timed out: by the kinds of the `io::Error`s in the chain and
by the outermost text.  `GatewayFails` says when this was so: the handshake was not
finished in time, or the gateway's stream failed, in the handshake or while bytes were
copied, with an error of a lost connection.

The two do not agree.  `copy_bidirectional` does not say which of its sides failed, so a
reset of the local TCP socket is read as a lost connection; and the text of a refusal
contains the id of the service.  `Misread` are these two cases, and there are no others
(`driveClient_stalled`, `Misread.stalls`).
-/
import IrohExperiment.Gateway.Tunnel

namespace IrohExperiment.Gateway

open Rust

/-! ## What an error is taken for -/

/-- `is_connection_lost` -/
def isConnectionLost (e : Anyhow) : Bool :=
  (e.ioKinds.any fun kind => kind = .connectionReset ∨ kind = .notConnected) ||
    contains e.toText "connection lost".toList

/-- An error after which `tunnel_one` looks at the cache. -/
def stalled (e : Anyhow) : Bool :=
  isConnectionLost e || contains e.toText "tunnel handshake timed out".toList

/-! ## What has failed -/

/-- The kinds of the errors of a lost connection. -/
def IsLost (kind : ErrorKind) : Prop := kind = .connectionReset ∨ kind = .notConnected

instance (kind : ErrorKind) : Decidable (IsLost kind) := inferInstanceAs (Decidable (_ ∨ _))

/-- The handshake of the client, with its deadline. -/
def timelyHandshake (serviceId : Text) : Task Wire Anyhow (Option (Except Anyhow TunnelStatus)) :=
  Task.timeout (clientHandshake serviceId)

/-- On the stream `wire`, `drive_client` fails because of the gateway connection: the handshake
times out, or the stream fails with an error of a lost connection. -/
inductive GatewayFails (copy : Source → Source → Copied) (localSide : Source) (serviceId : Text)
    (wire : Wire) : Prop
  | timesOut {wire' : Wire}
      (hrun : (timelyHandshake serviceId).run wire = .returned (.ok none) wire')
  /-- the gateway's stream is the only one in the handshake -/
  | handshake {e : Anyhow} {kind : ErrorKind} {wire' : Wire}
      (hrun : (timelyHandshake serviceId).run wire = .returned (.ok (some (.error e))) wire')
      (hkind : kind ∈ e.ioKinds) (hlost : IsLost kind)
  | tunnel {kind : ErrorKind} {wire' : Wire}
      (hrun : (timelyHandshake serviceId).run wire = .returned (.ok (some (.ok .ok))) wire')
      (hcopy : (copy wire'.source localSide).result = some (.error (.stream, kind)))
      (hlost : IsLost kind)

/-- On the stream `wire`, `drive_client` fails because of something else, and the error reads
like a lost connection or a timeout of the handshake. -/
inductive Misread (debug : Text → Text) (copy : Source → Source → Copied) (localSide : Source)
    (serviceId : Text) (wire : Wire) : Prop
  /-- the gateway refuses the service -/
  | refused {status : TunnelStatus} {wire' : Wire}
      (hrun : (timelyHandshake serviceId).run wire = .returned (.ok (some (.ok status))) wire')
      (hstatus : status ≠ .ok) (hreads : stalled (rejection debug serviceId status) = true)
  /-- the local socket fails -/
  | localLost {kind : ErrorKind} {wire' : Wire}
      (hrun : (timelyHandshake serviceId).run wire = .returned (.ok (some (.ok .ok))) wire')
      (hcopy : (copy wire'.source localSide).result = some (.error (.other, kind)))
      (hlost : IsLost kind)

/-! ## Errors of the handshake -/

theorem stalled_ioError {kind : ErrorKind} (h : stalled (ioError kind) = true) : IsLost kind := by
  cases kind <;> revert h <;> decide

theorem stalled_readStatus {kind : ErrorKind}
    (h : stalled (ioContext "reading tunnel status" kind) = true) : IsLost kind := by
  cases kind <;> revert h <;> decide

/-- The error of a tunnel that is open reads like a lost connection if its kind does. -/
theorem stalled_pipe {kind : ErrorKind} :
    stalled (ioContext "tunnel pipe failed" kind) = true ↔ IsLost kind := by
  cases kind <;> decide

/-- No code of a status makes a text that is taken for a lost connection. -/
theorem not_stalled_unknown (v : UInt8) :
    stalled (.other s!"unknown tunnel status code {v}".toList) = false := by
  have htext : s!"unknown tunnel status code {v}".toList =
      "unknown tunnel status code ".toList ++ Nat.toDigits 10 v.toNat := by
    have hdigits : (toString v).toList = Nat.toDigits 10 v.toNat := by
      show (Nat.repr v.toNat).toList = _
      simp [Nat.repr]
    rw [String.toList_append, hdigits]
    rfl
  -- a letter that is neither in the text nor a digit is in both of the texts looked for
  have hmissing : ∀ (part : Text) (c : Char), c ∈ part → c ∉ "unknown tunnel status code ".toList →
      c.isDigit = false → contains s!"unknown tunnel status code {v}".toList part = false := by
    intro part c hc htext' hdigit
    rw [Bool.eq_false_iff]
    intro hcontains
    have hmem := subset_of_contains hcontains hc
    rw [htext, List.mem_append] at hmem
    rcases hmem with hmem | hmem
    · exact htext' hmem
    · simp [Nat.isDigit_of_mem_toDigits (by decide) (by decide) hmem] at hdigit
  have hlost : isConnectionLost (.other s!"unknown tunnel status code {v}".toList) = false :=
    hmissing _ 'i' (by decide) (by decide) (by decide)
  have htimeout := hmissing "tunnel handshake timed out".toList 'h' (by decide)
    (by decide) (by decide)
  unfold stalled
  rw [hlost, Bool.false_or]
  exact htimeout

/-- A request whose write fails in a way that is taken for a lost connection. -/
theorem writeRequest_stalled {serviceId : Text} {wire wire' : Wire} {e : Anyhow}
    (h : (writeRequest serviceId).run wire = .returned (.error e) wire')
    (hstalled : stalled e = true) :
    ∃ kind ∈ e.ioKinds, IsLost kind := by
  have hput : ∀ {events : List Event} {w w' : Wire},
      ((put events).mapErr ioError).run w = .returned (.error e) w' →
        ∃ kind ∈ e.ioKinds, IsLost kind := by
    intro events w w' hrun
    obtain ⟨kind, -, rfl⟩ := Task.mapErr_eq_error.mp hrun
    exact ⟨kind, List.mem_singleton_self _, stalled_ioError hstalled⟩
  unfold writeRequest at h
  rcases Task.bind_eq_error.mp h with h | ⟨_, w₁, -, h⟩
  · rw [Task.run_ofExcept] at h
    split_ifs at h with hfits
    · cases h
    · obtain rfl := Except.error.inj (Verdict.returned.inj h).1
      revert hstalled
      decide
  rcases Task.bind_eq_error.mp h with h | ⟨_, w₂, -, h⟩
  · rw [Task.run_ofExcept] at h
    split_ifs at h with hfits
    · cases h
    · obtain rfl := Except.error.inj (Verdict.returned.inj h).1
      revert hstalled
      decide
  rcases Task.bind_eq_error.mp h with h | ⟨_, w₃, -, h⟩
  · exact hput h
  rcases Task.bind_eq_error.mp h with h | ⟨_, w₄, -, h⟩
  · exact hput h
  rcases Task.bind_eq_error.mp h with h | ⟨_, w₅, -, h⟩
  · exact hput h
  · exact hput h

/-- A status that cannot be read, in a way that is taken for a lost connection. -/
theorem readStatus_stalled {source : Source} {e : Anyhow} (h : readStatus.run source = .failed e)
    (hstalled : stalled e = true) : ∃ kind ∈ e.ioKinds, IsLost kind := by
  unfold readStatus at h
  rcases Async.bind_eq_failed.mp h with h | ⟨v, source', -, h⟩
  · obtain ⟨kind, -, rfl⟩ := Async.mapErr_eq_failed.mp h
    exact ⟨kind, List.mem_singleton_self _, stalled_readStatus hstalled⟩
  · cases hstatus : TunnelStatus.fromU8 v with
    | some status =>
      simp only [hstatus] at h
      cases h
    | none =>
      simp only [hstatus] at h
      obtain rfl : .other s!"unknown tunnel status code {v}".toList = e := Outcome.failed.inj h
      rw [not_stalled_unknown] at hstalled
      cases hstalled

/-- In the handshake, what is taken for a lost connection is an error of the gateway's stream. -/
theorem clientHandshake_stalled {serviceId : Text} {wire wire' : Wire} {e : Anyhow}
    (h : (clientHandshake serviceId).run wire = .returned (.error e) wire')
    (hstalled : stalled e = true) : ∃ kind ∈ e.ioKinds, IsLost kind := by
  rcases Task.bind_eq_error.mp h with h | ⟨_, wire₁, -, h⟩
  · exact writeRequest_stalled h hstalled
  · unfold readEarly at h
    rw [Task.run_ofAsync] at h
    cases hread : readStatus.run wire₁.early with
    | done status early => simp [hread] at h
    | waits => simp [hread] at h
    | failed e' =>
      rw [hread] at h
      obtain rfl := Except.error.inj (Verdict.returned.inj h).1
      exact readStatus_stalled hread hstalled

/-! ## Errors of `drive_client` -/

section

variable {debug : Text → Text} {copy : Source → Source → Copied} {localSide : Source}
  {serviceId : Text} {wire : Wire}

/-- A handshake that fails in time. -/
theorem driveClient_failed {e : Anyhow} {wire' : Wire}
    (hrun : (timelyHandshake serviceId).run wire = .returned (.ok (some (.error e))) wire') :
    (driveClient debug copy localSide serviceId).run wire = .returned (.error e) wire' :=
  Task.bind_ok hrun

/-- A handshake that comes to a status in time. -/
theorem driveClient_answered {status : TunnelStatus} {wire' : Wire}
    (hrun : (timelyHandshake serviceId).run wire = .returned (.ok (some (.ok status))) wire') :
    (driveClient debug copy localSide serviceId).run wire =
      (clientTunnel debug copy localSide serviceId status).run wire' :=
  Task.bind_ok hrun

variable (debug copy localSide serviceId wire) in
/-- The copy of a tunnel that is open ends as `copy_bidirectional` does. -/
theorem clientTunnel_ok : ∃ wire', (clientTunnel debug copy localSide serviceId .ok).run wire =
    match (copy wire.source localSide).result with
    | some (.ok counts) => .returned (.ok ⟨counts.2, counts.1⟩) wire'
    | some (.error (_, kind)) => .returned (.error (ioContext "tunnel pipe failed" kind)) wire'
    | none => .hangs wire' := by
  refine ⟨{ wire with log := wire.log ++ (copy wire.source localSide).transfers.map .moved }, ?_⟩
  unfold clientTunnel
  rw [if_neg (not_not.mpr rfl)]
  have hcopy : (copyBidirectional copy localSide).run wire =
      match (copy wire.source localSide).result with
      | some (.ok counts) => .returned (.ok counts)
          { wire with log := wire.log ++ (copy wire.source localSide).transfers.map .moved }
      | some (.error (_, kind)) => .returned (.error kind)
          { wire with log := wire.log ++ (copy wire.source localSide).transfers.map .moved }
      | none => .hangs
          { wire with log := wire.log ++ (copy wire.source localSide).transfers.map .moved } :=
    rfl
  rcases hresult : (copy wire.source localSide).result with _ | ⟨⟨side, kind⟩⟩ | counts <;>
    simp only [hresult] at hcopy
  · exact Task.bind_hangs (Task.mapErr_hangs hcopy)
  · exact Task.bind_error (Task.mapErr_error hcopy)
  · exact Task.bind_ok (Task.mapErr_ok hcopy)

/-- An error that is taken for a lost connection or a timeout is one, or is misread. -/
theorem driveClient_stalled {wire' : Wire} {e : Anyhow}
    (h : (driveClient debug copy localSide serviceId).run wire = .returned (.error e) wire')
    (hstalled : stalled e = true) :
    GatewayFails copy localSide serviceId wire ∨ Misread debug copy localSide serviceId wire := by
  rcases hhandshake : (clientHandshake serviceId).run wire with ⟨e' | status, wire₁⟩ | wire₁
  · have hrun : (timelyHandshake serviceId).run wire =
        .returned (.ok (some (.error e'))) wire₁ := by
      rw [timelyHandshake, Task.run_timeout, hhandshake]
    rw [driveClient_failed hrun] at h
    obtain rfl := Except.error.inj (Verdict.returned.inj h).1
    obtain ⟨kind, hkind, hlost⟩ := clientHandshake_stalled hhandshake hstalled
    exact .inl (.handshake hrun hkind hlost)
  · have hrun : (timelyHandshake serviceId).run wire =
        .returned (.ok (some (.ok status))) wire₁ := by
      rw [timelyHandshake, Task.run_timeout, hhandshake]
    rw [driveClient_answered hrun] at h
    by_cases hstatus : status = .ok
    · subst hstatus
      obtain ⟨final, htunnel⟩ := clientTunnel_ok debug copy localSide serviceId wire₁
      rw [htunnel] at h
      rcases hcopy : (copy wire₁.source localSide).result with _ | ⟨⟨side, kind⟩⟩ | counts <;>
        simp only [hcopy] at h
      · cases h
      · obtain rfl := Except.error.inj (Verdict.returned.inj h).1
        have hlost := stalled_pipe.mp hstalled
        cases side with
        | stream => exact .inl (.tunnel hrun hcopy hlost)
        | other => exact .inr (.localLost hrun hcopy hlost)
      · cases h
    · simp only [clientTunnel, if_pos hstatus, Task.run_throw] at h
      obtain rfl := Except.error.inj (Verdict.returned.inj h).1
      exact .inr (.refused hrun hstatus hstalled)
  · have hrun : (timelyHandshake serviceId).run wire = .returned (.ok none) wire₁ := by
      rw [timelyHandshake, Task.run_timeout, hhandshake]
    exact .inl (.timesOut hrun)

/-- What is misread is taken for a lost connection or a timeout. -/
theorem Misread.stalls (h : Misread debug copy localSide serviceId wire) :
    ∃ e wire', (driveClient debug copy localSide serviceId).run wire = .returned (.error e) wire' ∧
      stalled e = true := by
  cases h with
  | @refused status wire' hrun hstatus hreads =>
    refine ⟨rejection debug serviceId status, wire', ?_, hreads⟩
    rw [driveClient_answered hrun]
    simp only [clientTunnel, if_pos hstatus, Task.run_throw]
  | @localLost kind wire' hrun hcopy hlost =>
    obtain ⟨final, htunnel⟩ := clientTunnel_ok debug copy localSide serviceId wire'
    refine ⟨ioContext "tunnel pipe failed" kind, final, ?_, stalled_pipe.mpr hlost⟩
    rw [driveClient_answered hrun, htunnel, hcopy]

/-- Nothing has failed on the gateway connection when an error is misread. -/
theorem Misread.not_gatewayFails (h : Misread debug copy localSide serviceId wire) :
    ¬ GatewayFails copy localSide serviceId wire := by
  intro hfails
  cases h with
  | refused hrun hstatus hreads =>
    cases hfails with
    | timesOut hrun' => rw [hrun] at hrun'; cases hrun'
    | handshake hrun' => rw [hrun] at hrun'; cases hrun'
    | tunnel hrun' =>
      rw [hrun] at hrun'
      cases hrun'
      exact hstatus rfl
  | localLost hrun hcopy hlost =>
    cases hfails with
    | timesOut hrun' => rw [hrun] at hrun'; cases hrun'
    | handshake hrun' => rw [hrun] at hrun'; cases hrun'
    | tunnel hrun' hcopy' =>
      rw [hrun] at hrun'
      cases hrun'
      rw [hcopy] at hcopy'
      cases hcopy'

end

end IrohExperiment.Gateway

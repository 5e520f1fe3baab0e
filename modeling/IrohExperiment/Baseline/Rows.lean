/-
# The result rows of the baseline echo (`baseline/src/bin/dialer.rs`, `acceptor.rs`)

What either program records of one run: the run id that pairs the two rows, the verified or
echoed payload, the failure, and what has been seen of the connection's paths.

`dialerRow` and `acceptorRow` are what `main` of either program appends.  The main result is
`echo_rows`: the rows of one run carry one run id and agree on what went over; `rows_direct`
is about the direct path that the telemetry reports.
-/
import IrohExperiment.Baseline.Echo

namespace IrohExperiment.Baseline

open Rust History Results

/-! ## Path telemetry -/

/-- What a program sees of its paths: a `Selected` event, or the live snapshot of the selected
path behind the subscription. -/
inductive Sighting where
  | event (isRelay : Bool) (atMs : ℕ)
  | snapshot (selected : Option Bool) (atMs : ℕ)
  deriving DecidableEq, Repr

/-- A direct path has been seen. -/
def Sighting.direct : Sighting → Bool
  | .event isRelay _ => !isRelay
  | .snapshot selected _ => selected == some false

/-- `first_direct` of the dialer's `PathTelemetry`. -/
def dialerSees (firstDirect : Option ℕ) : Sighting → Option ℕ
  | .event isRelay atMs => if isRelay then firstDirect else firstDirect.or (some atMs)
  | .snapshot selected atMs => if selected = some false then some atMs else firstDirect

/-- The acceptor's `PathTelemetry`. -/
structure PathTelemetry where
  firstDirect : Option ℕ
  lastSelectedIsRelay : Bool
  directEver : Bool
  deriving DecidableEq, Repr

def PathTelemetry.start : PathTelemetry := ⟨none, true, false⟩

def PathTelemetry.sees (t : PathTelemetry) : Sighting → PathTelemetry
  | .event isRelay atMs =>
    if isRelay then { t with lastSelectedIsRelay := true }
    else ⟨t.firstDirect.or (some atMs), false, true⟩
  | .snapshot (some isRelay) _ =>
    { t with lastSelectedIsRelay := isRelay, directEver := t.directEver || !isRelay }
  | .snapshot none _ => t

/-- The dialer's `first_direct` tells whether a direct path has been seen. -/
theorem dialerSees_direct (sightings : List Sighting) :
    (sightings.foldl dialerSees none).isSome = sightings.any Sighting.direct := by
  induction sightings using List.reverseRecOn with
  | nil => rfl
  | append_singleton sightings sighting ih =>
    rw [List.foldl_concat, List.any_append, ← ih]
    cases sighting with
    | event isRelay atMs =>
      cases isRelay <;> simp [dialerSees, Sighting.direct]
    | snapshot selected atMs =>
      by_cases hdirect : selected = some false <;> simp [dialerSees, Sighting.direct, hdirect]

/-- So does the acceptor's `direct_ever`, and nothing else tells of a path that has not been
seen. -/
theorem PathTelemetry.sees_direct (sightings : List Sighting) :
    (sightings.foldl sees start).directEver = sightings.any Sighting.direct ∧
      ((sightings.foldl sees start).firstDirect.isSome = true →
        sightings.any Sighting.direct = true) ∧
      ((sightings.foldl sees start).lastSelectedIsRelay = false →
        sightings.any Sighting.direct = true) := by
  induction sightings using List.reverseRecOn with
  | nil => exact ⟨rfl, fun h => (by cases h), fun h => (by cases h)⟩
  | append_singleton sightings sighting ih =>
    obtain ⟨hever, hfirst, hlast⟩ := ih
    rw [List.foldl_concat, List.any_append]
    generalize sightings.any Sighting.direct = seen at *
    cases sighting with
    | event isRelay atMs =>
      cases isRelay with
      | true => simpa [sees, Sighting.direct] using ⟨hever, hfirst⟩
      | false => simp [sees, Sighting.direct]
    | snapshot selected atMs =>
      cases selected with
      | none => simpa [sees, Sighting.direct] using ⟨hever, hfirst, hlast⟩
      | some isRelay =>
        cases isRelay with
        | true => simpa [sees, Sighting.direct] using ⟨hever, hfirst⟩
        | false => simp [sees, Sighting.direct]

/-! ## The rows -/

/-- `selected_path` -/
def selectedPath (isRelay : Bool) : SelectedPath := if isRelay then .relay else .directIp

/-- The dialer's row; `selected` is the round trip in ms and the kind of the path that is selected
at the end. -/
def dialerRow (describe : ErrorKind → String) (runId networkProfile : Text) (wire : Bytes)
    (payloadLength : ℕ) (echoed : ℕ) (failure : Option DialFailure) (firstDirect : Option ℕ)
    (selected : Option (ℕ × Bool)) : ExperimentResult :=
  { newResult runId "baseline".toList "dialer".toList networkProfile with
    directConnectionSuccess := some (firstDirect.isSome || selected.map Prod.snd == some false)
    timeToDirectMs := firstDirect
    selectedPath := selected.map fun path => selectedPath path.2
    directPathRttMs := if selected.map Prod.snd = some false then selected.map Prod.fst else none
    payloadBytes := echoed - (wire.length - payloadLength)
    failureReason := failure.map fun failure => (failure.reason describe).toList }

/-- The acceptor's row; `fallbackId` is the id of a row that cannot be paired. -/
def acceptorRow (describe : ErrorKind → String) (fallbackId networkProfile : Text)
    (runId : Option Text) (echoed : ℕ) (failure : Option AcceptFailure) (t : PathTelemetry)
    (selected : Option (ℕ × Bool)) : ExperimentResult :=
  let selectedIsRelay := (selected.map Prod.snd).getD t.lastSelectedIsRelay
  { newResult (runId.getD fallbackId) "baseline".toList "acceptor".toList networkProfile with
    directConnectionSuccess := some (t.directEver || t.firstDirect.isSome || !selectedIsRelay)
    timeToDirectMs := t.firstDirect
    selectedPath := some (selectedPath selectedIsRelay)
    directPathRttMs := if selectedIsRelay then none else selected.map Prod.fst
    payloadBytes := echoed
    failureReason := failure.map fun failure => (failure.reason describe).toList }

/-- A row reports a direct connection exactly if a direct path has been seen, and times one only
then. -/
theorem rows_direct (describe : ErrorKind → String) (runId fallbackId networkProfile : Text)
    (recorded : Option Text) (wire : Bytes) (payloadLength echoed echoed' : ℕ)
    (failure : Option DialFailure) (failure' : Option AcceptFailure)
    (sightings sightings' : List Sighting) (selected selected' : Option (ℕ × Bool)) :
    (dialerRow describe runId networkProfile wire payloadLength echoed failure
        (sightings.foldl dialerSees none) selected).directConnectionSuccess =
      some (sightings.any Sighting.direct || selected.map Prod.snd == some false) ∧
    (acceptorRow describe fallbackId networkProfile recorded echoed' failure'
        (sightings'.foldl PathTelemetry.sees .start) selected').directConnectionSuccess =
      some (sightings'.any Sighting.direct || selected'.map Prod.snd == some false) := by
  obtain ⟨hever, hfirst, hlast⟩ := PathTelemetry.sees_direct sightings'
  refine ⟨by unfold dialerRow; rw [dialerSees_direct], ?_⟩
  unfold acceptorRow
  simp only [hever]
  rcases selected' with - | ⟨rtt, isRelay⟩
  · cases hany : sightings'.any Sighting.direct with
    | true => simp
    | false =>
      rw [hany] at hfirst hlast
      have : (sightings'.foldl PathTelemetry.sees .start).firstDirect.isSome = false := by
        simpa using hfirst
      simp at this hlast
      simp [this, hlast]
  · cases hany : sightings'.any Sighting.direct with
    | true => simp
    | false =>
      rw [hany] at hfirst
      have : (sightings'.foldl PathTelemetry.sees .start).firstDirect.isSome = false := by
        simpa using hfirst
      simp [this]

/-! ## The two rows of one run -/

variable {runId : Text} {payload : Bytes} {window : ℕ}
  {events : List (Move DialEvent ⊕ Move AcceptEvent)} {c : Joined Dialer Acceptor}

/-- The two rows of one run, in every interleaving: the acceptor's row either carries the dialer's
run id or nothing has been echoed; a row without a failure counts the whole payload, and the
dialer's says so of the acceptor's too; the dialer never counts more than the acceptor and the
chunk it has under way; neither blames the bytes of the other, and a stream that ends early is
the dialer's failure. -/
theorem echo_rows (hid : (utf8 runId).length ≤ runIdMaxBytes)
    (hrun : echoRun runId payload window events = some c) {failure : Option DialFailure}
    {failure' : Option AcceptFailure} (hdialer : c.left.state.phase = .done failure)
    (hacceptor : c.right.state.phase = .done failure') (describe : ErrorKind → String)
    (fallbackId profile profile' : Text) (firstDirect : Option ℕ) (t : PathTelemetry)
    (selected selected' : Option (ℕ × Bool)) :
    let dialer := dialerRow describe runId profile (wire runId payload) payload.length
      c.left.state.echoed failure firstDirect selected
    let acceptor := acceptorRow describe fallbackId profile' c.right.state.runId
      c.right.state.echoed failure' t selected'
    (dialer.failureReason = none → acceptor.runId = dialer.runId ∧
      dialer.payloadBytes = payload.length ∧ acceptor.payloadBytes = payload.length) ∧
    (acceptor.failureReason = none → acceptor.runId = dialer.runId ∧
      acceptor.payloadBytes = payload.length) ∧
    (acceptor.runId = dialer.runId ∨ acceptor.payloadBytes = 0 ∧ dialer.payloadBytes = 0) ∧
    dialer.payloadBytes ≤ acceptor.payloadBytes + chunkBytes ∧
    (∀ offset, failure ≠ some (.echoMismatch offset)) ∧
    (∀ length, failure' ≠ some (.headerTooLong length)) ∧
    (failure' = some .endedEarly → dialer.failureReason ≠ none) := by
  intro dialer acceptor
  have h := echo_run hrun
  have hheader : (wire runId payload).length - payload.length = (runHeader runId).length := by
    rw [wire_length, Nat.add_sub_cancel]
  have hpaid : dialer.payloadBytes = c.left.state.echoed - (runHeader runId).length := by
    show c.left.state.echoed - _ = _
    rw [hheader]
  have hverified := h.verified
  -- an acceptor that has sent as many bytes as the wire has echoed all of it
  have hwhole : (wire runId payload).length ≤ c.right.state.sent.length →
      acceptor.runId = dialer.runId ∧ acceptor.payloadBytes = payload.length := by
    intro hsent
    obtain ⟨-, hechoed, hname, -⟩ := h.complete hid hsent
    exact ⟨congrArg (fun name => name.getD fallbackId) hname, hechoed⟩
  refine ⟨fun hnone => ?_, fun hnone => ?_, ?_, ?_, ?_, ?_, ?_⟩
  · obtain rfl : failure = none := Option.map_eq_none_iff.mp hnone
    have hechoed := (h.dials.done hdialer).2
    obtain ⟨hid', hpayload⟩ := hwhole (hechoed ▸ hverified)
    refine ⟨hid', ?_, hpayload⟩
    rw [hpaid, hechoed, wire_length, Nat.add_sub_cancel_left]
  · obtain rfl : failure' = none := Option.map_eq_none_iff.mp hnone
    exact hwhole (h.over hid hacceptor)
  · rcases h.echoes.counted with hmute | ⟨header, hu, -⟩
    · refine .inr ⟨hmute.echoed, ?_⟩
      rw [hmute.sent, List.length_nil] at hverified
      rw [hpaid]
      omega
    · exact .inl (congrArg (fun name => name.getD fallbackId) (h.header hid hu).2)
  · show dialer.payloadBytes ≤ c.right.state.echoed + chunkBytes
    rw [hpaid]
    rcases h.echoes.counted with hmute | ⟨header, hu, hle, -⟩
    · rw [hmute.sent, List.length_nil] at hverified
      omega
    · obtain rfl := (h.header hid hu).1
      omega
  · rintro offset rfl
    exact h.no_mismatch offset hdialer
  · rintro length rfl
    exact h.no_long_header hid length hacceptor
  · rintro rfl hnone
    obtain ⟨failed, hfailed⟩ := h.ended_early hid hacceptor
    rw [hdialer] at hfailed
    obtain rfl := DialPhase.done.inj hfailed
    cases hnone

/-- A run id of one letter and a payload of two bytes, echoed. -/
def sampleEcho : List (Move DialEvent ⊕ Move AcceptEvent) :=
  [.inl (.own .opened), .inl (.own (.accept 7)), .inl (.own .nextChunk), .inr (.own .accepted),
    .inr (.carry ⟨wire ['r'] [5, 6], by decide⟩), .inr (.finish .finished),
    .inr (.own .readLength), .inr (.own .readId), .inr (.own (.accept 5)), .inr (.own .read),
    .inr (.own (.accept 2)), .inr (.own .read), .inr (.own .finish),
    .inl (.carry ⟨wire ['r'] [5, 6], by decide⟩), .inl (.finish .finished), .inl (.own .read),
    .inl (.own .read), .inl (.own .join)]

/-- How both programs end on `sampleEcho`. -/
def sampleEchoed : Joined Dialer Acceptor where
  left := ⟨⟨⟨[], .finished⟩, wire ['r'] [5, 6], .finished, 7, .done none⟩,
    ⟨wire ['r'] [5, 6], .finished⟩⟩
  right := ⟨⟨⟨[], .finished⟩, wire ['r'] [5, 6], false, some ['r'], 2, .done none⟩,
    ⟨wire ['r'] [5, 6], .finished⟩⟩

theorem sampleEcho_run : echoRun ['r'] [5, 6] 64 sampleEcho = some sampleEchoed := by
  decide +kernel

theorem echo_rows_two_bytes :
    (acceptorRow (fun _ => "") [] [] (some ['r']) 2 none .start none).runId = ['r'] ∧
      (dialerRow (fun _ => "") ['r'] [] (wire ['r'] [5, 6]) 2 7 none none none).payloadBytes = 2 ∧
      (acceptorRow (fun _ => "") [] [] (some ['r']) 2 none .start none).payloadBytes = 2 :=
  (echo_rows (by decide) sampleEcho_run rfl rfl (fun _ => "") [] [] [] none .start none none).1 rfl

end IrohExperiment.Baseline

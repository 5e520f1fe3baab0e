/-
# Two peers and their reports (`cloudflare-h3-observer/src/bin/nat-peer.rs`)

Both peers of one experiment: the candidate files they exchange, the connection, the echo over it
and what each of them watches in the meantime.  The two reports can be taken together.

A `Peer` is a run of the program with what it met.  `Reads` says that what it has read is
the other's candidate, and `Watches` that its echo is the shared one.  The main result is
`nat_peers`: what the two reports say, taken together, of the transfer and of each other.
-/
import IrohExperiment.NatPeer.Report
import IrohExperiment.Roundtrip.Completion

namespace IrohExperiment.NatPeer

open Rust Observer Roundtrip History

-- `ι` is `EndpointId`
variable {ι : Type}

/-! ## The payload -/

/-- `(0..PAYLOAD_BYTES).map(|i| (i % 251) as u8).collect()` -/
@[irreducible] def expected : Bytes := (List.range payloadBytes).map fun i => UInt8.ofNat (i % 251)

theorem expected_length : expected.length = payloadBytes := by
  unfold expected
  rw [List.length_map, List.length_range]

theorem expected_ne_nil : expected ≠ [] := by
  intro h
  have hlen := expected_length
  rw [h] at hlen
  cases hlen

/-- What `echo` goes by: there is no verification behind it. -/
def natTerms : Terms := ⟨expected, expected, payloadBytes, none⟩

theorem fits_natTerms : Exchange.Fits natTerms := by
  refine ⟨rfl, ?_, fun verification hterms => by cases hterms⟩
  show expected.length ≤ payloadBytes
  rw [expected_length]

/-! ## The watch over the echo -/

/-- What one peer watches: the paths before and after the echo, and what happens in between. -/
structure Watching where
  initial : List PathInfo
  final : List PathInfo
  trace : List Happening

/-- What `echo_on_observed_path` comes to: the watch ends with the result, and the transfer that
it polls is through only if the echo of this peer is. -/
def Watching.Comes (v : Watching) (addr : SocketAddr) (result : Except PathError Unit)
    (through : Prop) : Prop :=
  (∃ watch, echoOnObservedPath v.initial v.final addr v.trace = some watch ∧
    watch.progress = .returned result) ∧
    (.poll (some (.ok ())) ∈ v.trace → through)

/-- The function returns without an error only behind a transfer that is through. -/
theorem polled_of_returned {initial final : List PathInfo} {addr : SocketAddr}
    {trace : List Happening} {watch : Watch}
    (hrun : echoOnObservedPath initial final addr trace = some watch)
    (hok : watch.progress = .returned (.ok ())) : .poll (some (.ok ())) ∈ trace := by
  have hinitial : (Watch.start initial addr).progress ≠ .returned (.ok ()) := by
    unfold Watch.start
    split
    · exact fun h => by cases h
    · exact fun h => by cases h
  refine run_induct (P := fun trace watch => watch.progress = .returned (.ok ()) →
    .poll (some (.ok ())) ∈ trace) (fun h => absurd h hinitial) ?_ hrun hok
  intro trace c happening c' _ _ hstep hreturned
  obtain ⟨hrunning, ⟨event, -, -, rfl⟩ | ⟨-, rfl⟩ | ⟨transfer, rfl, rfl⟩⟩ := Watch.step_cases hstep
  · cases hrunning.symm.trans hreturned
  · cases hrunning.symm.trans hreturned
  · refine List.mem_append_right _ (List.mem_singleton.mpr (congrArg _ ?_))
    have hpolled : ∀ c : Watch, c.progress = .running →
        (c.pollTransfer final addr transfer).progress = .returned (.ok ()) →
          some (.ok ()) = transfer := by
      intro c hrunning hreturned
      unfold Watch.pollTransfer at hreturned
      split at hreturned
      · cases hrunning.symm.trans hreturned
      · cases hreturned
      · rfl
    cases hended : c.eventsEnded with
    | true =>
      rw [Watch.poll_of_ended hended] at hreturned
      exact hpolled c hrunning hreturned
    | false =>
      cases hqueue : c.queue with
      | nil =>
        rw [Watch.poll_of_empty hended hqueue] at hreturned
        split_ifs at hreturned
        · cases hrunning.symm.trans hreturned
        · exact hpolled c hrunning hreturned
      | cons event queue =>
        rw [Watch.poll_of_event hended hqueue] at hreturned
        split at hreturned
        · cases hrunning.symm.trans hreturned
        · cases hreturned

/-- A watch that ends without an error has seen the peer's address and no other. -/
theorem conforms_of_comes {v : Watching} {addr : SocketAddr} {through : Prop}
    (h : v.Comes addr (.ok ()) through) :
    through ∧ (∀ p ∈ v.initial ++ v.final, Matches addr p.remoteAddr) ∧
      ∀ event ∈ queuedEvents v.trace, Conforms addr event := by
  obtain ⟨⟨watch, hrun, hreturned⟩, hthrough⟩ := h
  have hdirect : checkDirect v.initial addr = .ok () := by
    cases hdirect : checkDirect v.initial addr with
    | ok u => rfl
    | error error => cases (run_of_refused hdirect hrun).2.symm.trans hreturned
  have hfollowed := followed_run hdirect hrun
  unfold Followed at hfollowed
  rw [hreturned] at hfollowed
  refine ⟨hthrough (polled_of_returned hrun hreturned), fun p hp => ?_, hfollowed.1⟩
  rcases List.mem_append.mp hp with hp | hp
  · exact (checkDirect_iff.mp hdirect).1 p hp
  · exact hfollowed.2 p hp

/-! ## Two peers -/

variable [DecidableEq ι]

/-- One peer of an experiment. -/
structure Peer (ι : Type) where
  args : Args
  localId : ι
  world : World ι
  watching : Watching

namespace Peer

def report (p : Peer ι) : Report ι := natReport p.args p.localId p.world

/-- The peer reads the candidate that the other one has written, if it reads one. -/
def Reads (p q : Peer ι) : Prop :=
  ∀ candidate, p.world.waitPeer = .ok candidate →
    ∃ observed, q.world.discover = .ok observed ∧
      candidate = localCandidate q.args q.localId observed

/-- The echo of the peer is what it has watched. -/
def Watches (p : Peer ι) (through : Prop) : Prop :=
  ∀ candidate, p.world.waitPeer = .ok candidate →
    p.watching.Comes candidate.addr p.world.echoOnObservedPath through

/-- All that the peer has seen of paths is the address of its candidate. -/
def OnlyPath (p : Peer ι) (addr : SocketAddr) : Prop :=
  (∀ path ∈ p.watching.initial ++ p.watching.final, Matches addr path.remoteAddr) ∧
    ∀ event ∈ queuedEvents p.watching.trace, Conforms addr event

end Peer

theorem validatePeer_eq_ok {args : Args} {localId : ι} {observed : SocketAddr} {peer : Candidate ι}
    (h : validatePeer args localId observed peer = .ok ()) :
    peer.runId = args.runId ∧ peer.method = args.method ∧ peer.role ≠ args.role ∧
      peer.endpointId ≠ localId ∧
      (args.allowPrivatePeer = true ∨
        publicIp peer.addr.ip = true ∧ publicIp observed.ip = true) := by
  unfold validatePeer at h
  split_ifs at h with hsame hrole hfamily haddr hpublic
  exact ⟨hsame.2.1, hsame.2.2, hrole.1, hrole.2, hpublic⟩

/-- What the candidate of a report comes to, if the file was the other peer's. -/
theorem observed_of_report {p q : Peer ι} (hreads : p.Reads q) {candidate : Candidate ι}
    (hpeer : p.report.peerObservation = some candidate) :
    ∃ ours theirs, p.world.discover = .ok ours ∧ q.world.discover = .ok theirs ∧
      p.report.localObservation = some (localCandidate p.args p.localId ours) ∧
      candidate = localCandidate q.args q.localId theirs ∧
      q.args.runId = p.args.runId ∧ q.args.method = p.args.method ∧ q.args.role ≠ p.args.role ∧
      q.localId ≠ p.localId ∧ p.report.differentObservedIps = some (decide (theirs.ip ≠ ours.ip)) ∧
      (p.args.allowPrivatePeer = true ∨ publicIp theirs.ip = true ∧ publicIp ours.ip = true) := by
  obtain ⟨hwait, ours, hours, hlocal, hvalid, -, hdifferent⟩ :=
    (natReport_truthful p.args p.localId p.world).peer candidate hpeer
  obtain ⟨theirs, htheirs, rfl⟩ := hreads candidate hwait
  obtain ⟨hrun, hmethod, hrole, hid, hpublic⟩ := validatePeer_eq_ok hvalid
  exact ⟨ours, theirs, hours, htheirs, hlocal, rfl, hrun, hmethod, hrole, hid, hdifferent, hpublic⟩

/-- A report without a failure: the echo of the peer is through, on the path it has observed. -/
theorem through_of_report {p : Peer ι} {through : Prop} (hwatches : p.Watches through)
    (hfine : p.report.failureReason = none) :
    through ∧ p.report.payloadBytes = payloadBytes ∧ ∃ candidate,
      p.report.peerObservation = some candidate ∧ p.OnlyPath candidate.addr := by
  have h := natReport_truthful p.args p.localId p.world
  have hsuccess := h.success.mp hfine
  obtain ⟨hpayload, -, hecho⟩ := h.echoed hsuccess
  have hdirect : p.report.directConnectionSuccess = some true :=
    h.direct.mpr (by rw [hsuccess]; rfl)
  obtain ⟨candidate, conn, hpeer, -⟩ := h.connected hdirect
  have hcomes := hwatches candidate (h.peer candidate hpeer).1
  rw [hecho] at hcomes
  obtain ⟨hthrough, honly⟩ := conforms_of_comes hcomes
  exact ⟨hthrough, hpayload, candidate, hpeer, honly⟩

/-- Two peers that have exchanged their candidate files, whatever is lost and however the steps of
their echo are ordered: a report without a failure means that the payload has come through both
ways, whatever the other report says, over the peer's observed address alone; and two reports
that have a peer in them name each other. -/
theorem nat_peers {dialer listener : Peer ι} {window : ℕ} {events : List ExchangeEvent}
    {c : Exchange} (hrun : run (Exchange.step natTerms window) .start events = some c)
    (hdials : dialer.Reads listener) (hlistens : listener.Reads dialer)
    (hdial : dialer.Watches (c.dial = .returned (.ok ())))
    (hlisten : listener.Watches (c.listen = .returned (.ok ()))) :
    (∀ p ∈ [dialer, listener], p.report.failureReason = none →
      Exchange.AllThrough natTerms c ∧ p.report.payloadBytes = payloadBytes ∧ ∃ candidate,
        p.report.peerObservation = some candidate ∧ p.OnlyPath candidate.addr) ∧
    (dialer.report.peerObservation.isSome = true → listener.report.peerObservation.isSome = true →
      dialer.report.peerObservation = listener.report.localObservation ∧
        listener.report.peerObservation = dialer.report.localObservation ∧
        dialer.report.differentObservedIps = listener.report.differentObservedIps ∧
        dialer.args.runId = listener.args.runId ∧ dialer.args.method = listener.args.method ∧
        dialer.args.role ≠ listener.args.role ∧ dialer.localId ≠ listener.localId) := by
  have hsides := Exchange.sides_run hrun
  refine ⟨fun p hp hfine => ?_, fun hdialer hlistener => ?_⟩
  · rcases List.mem_cons.mp hp with rfl | hp
    · obtain ⟨hthrough, hpaid⟩ := through_of_report hdial hfine
      exact ⟨hsides.of_dial expected_ne_nil hthrough, hpaid⟩
    · obtain rfl := List.mem_singleton.mp hp
      obtain ⟨hthrough, hpaid⟩ := through_of_report hlisten hfine
      exact ⟨hsides.of_listen rfl hthrough, hpaid⟩
  · obtain ⟨peer, hpeer⟩ := Option.isSome_iff_exists.mp hdialer
    obtain ⟨peer', hpeer'⟩ := Option.isSome_iff_exists.mp hlistener
    obtain ⟨ours, theirs, hours, htheirs, hlocal, rfl, hrunId, hmethod, hrole, hid, hdiffer, -⟩ :=
      observed_of_report hdials hpeer
    obtain ⟨ours', theirs', hours', htheirs', hlocal', rfl, -, -, -, -, hdiffer', -⟩ :=
      observed_of_report hlistens hpeer'
    obtain rfl := Except.ok.inj (htheirs.symm.trans hours')
    obtain rfl := Except.ok.inj (htheirs'.symm.trans hours)
    refine ⟨hpeer.trans hlocal'.symm, hpeer'.trans hlocal.symm, ?_, hrunId.symm, hmethod.symm,
      hrole.symm, hid.symm⟩
    rw [hdiffer, hdiffer', decide_eq_decide.mpr ne_comm]

/-- The address of a peer in a local test. -/
def localAddr (port : UInt16) : SocketAddr := .new (.v4 ⟨2130706433⟩) port

/-- A peer of a local test that has its echo. -/
def localPeer (role otherRole : Role) (id other : ℕ) : Peer ℕ where
  args := ⟨.stun, role, "r".toList, localAddr 1, 30, true⟩
  localId := id
  world :=
    { bind := .ok ()
      onlyIp := true
      discover := .ok (localAddr 1)
      writeCandidate := .ok ()
      waitPeer := .ok ⟨1, "r".toList, .stun, otherRole, other, localAddr 1⟩
      reportedAge := .zero
      checkedAge := .zero
      connectPeer := .ok ⟨other, [⟨.ip (localAddr 1), true, false⟩]⟩
      connectTime := .fromMillis 1
      echoOnObservedPath := .ok () }
  watching := ⟨[⟨.ip (localAddr 1), true, false⟩], [], [.poll (some (.ok ()))]⟩

theorem localPeer_reads (role otherRole : Role) (id other : ℕ) :
    (localPeer role otherRole id other).Reads (localPeer otherRole role other id) := by
  intro candidate hwait
  obtain rfl := Except.ok.inj hwait
  exact ⟨localAddr 1, rfl, rfl⟩

theorem localPeer_watches (role otherRole : Role) (id other : ℕ) {through : Prop}
    (hthrough : through) : (localPeer role otherRole id other).Watches through := by
  intro candidate hwait
  obtain rfl := Except.ok.inj hwait
  have hreturned : ((Watch.start [⟨.ip (localAddr 1), true, false⟩] (localAddr 1)).poll []
      (localAddr 1) (some (.ok ()))).progress = .returned (.ok ()) := by
    decide +kernel
  exact ⟨⟨_, rfl, hreturned⟩, fun _ => hthrough⟩

theorem nat_peers_local : ∃ events c,
    run (Exchange.step natTerms 1200) .start events = some c ∧
      (localPeer .dial .listen 0 1).report.failureReason = none ∧
      Exchange.AllThrough natTerms c ∧
      (localPeer .dial .listen 0 1).report.peerObservation =
        (localPeer .listen .dial 1 0).report.localObservation := by
  have hclear : Exchange.Clear natTerms 1200 .start := Exchange.clear_start
  obtain ⟨events, c, -, hrun, ⟨hdial, hlisten⟩, -⟩ :=
    hclear.completes fits_natTerms expected_ne_nil (by decide) Nat.one_pos
  have hfine : (localPeer .dial .listen 0 1).report.failureReason = none := by decide +kernel
  obtain ⟨hthrough, hagree⟩ := nat_peers hrun (localPeer_reads .dial .listen 0 1)
    (localPeer_reads .listen .dial 1 0) (localPeer_watches .dial .listen 0 1 hdial)
    (localPeer_watches .listen .dial 1 0 hlisten)
  exact ⟨events, c, hrun, hfine, (hthrough _ (List.mem_cons_self ..) hfine).1,
    (hagree (by decide +kernel) (by decide +kernel)).1⟩

end IrohExperiment.NatPeer

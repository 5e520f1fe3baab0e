/-
# The first answer (`cloudflare-stun/src/probe.rs`)

What `probe_same_socket` observes, or what it is refused with, is said by the first of all
datagrams that reach iroh's socket from the subscription on, in the order in which they
reach it, that comes from the server and answers the transaction (`same_socket_decided`).

Nobody's datagrams are lost on the way.  What answers looks like STUN, so it is copied; the
copies are read in their order; and a probe that has not kept up is told so and fails, which
is the one case in which a copy is never read.  A window that ends leaves the rest of the
copies to the next one.

The step is one turn of a window (`Shared.Listens.window`), then one attempt
(`Shared.Listens.attempt`), and the run is the loop over the attempts (`attempts_decided`).
-/
import IrohExperiment.Stun.SameSocket

namespace IrohExperiment.Stun

open Rust

/-! ## Answers -/

/-- The datagram comes from the server and answers the request. -/
def Datagram.answers (server : SocketAddr) (txn : TransactionId) (packet : Datagram) : Bool :=
  packet.source = server &&
    ((parseBindingResponse packet.bytes txn).isOk ||
      (parseAuthenticatedError packet.bytes txn).isOk)

/-- What answers is copied. -/
theorem Datagram.isStun_of_answers {server : SocketAddr} {txn : TransactionId} {packet : Datagram}
    (h : packet.answers server txn = true) : isStun packet.bytes = true := by
  have hdecisive : decisive server txn ⟨packet.bytes, packet.source, .ok server, 0, 0⟩ = true := h
  exact isStun_of_decisive hdecisive

/-- What a datagram makes of a probe: an observation, or the error of a refusal. -/
inductive Says (p : Probing) (packet : Datagram) : Exec ProbeError Observation → Prop
  | address {observation : Observation}
      (hparse : parseBindingResponse packet.bytes p.txn = .ok ⟨observation.observedAddr⟩)
      (husable : usable p.localAddr observation.observedAddr = true)
      (hserver : observation.server = p.server) (hlocal : observation.localAddr = p.localAddr)
      (hsame : observation.sameSocketAsIroh = p.sameSocket) : Says p packet (.ok observation)
  | refusal {code : UInt16} {reason : Text}
      (herror : parseAuthenticatedError packet.bytes p.txn = .ok ⟨code, reason⟩) :
      Says p packet (.err (.rejected code reason))

/-- An observation is what its response says. -/
theorem says_of_accept {p : Probing} {packet : Packet} {resp : BindingResponse}
    {observation : Observation} (hparse : parseBindingResponse packet.bytes p.txn = .ok resp)
    (haccept : accept p packet resp = .ok observation) :
    Says p ⟨packet.bytes, packet.source⟩ (.ok observation) := by
  unfold accept at haccept
  obtain ⟨bound, hbound, haccept⟩ := Exec.bind_eq_ok.mp haccept
  obtain ⟨_, hbound', haccept⟩ := Exec.bind_eq_ok.mp haccept
  obtain ⟨_, husable, haccept⟩ := Exec.bind_eq_ok.mp haccept
  obtain rfl := Exec.ok.inj haccept
  exact .address hparse (ensure_eq_ok.mp husable) rfl rfl rfl

/-- A response that is not accepted is no refusal. -/
theorem accept_ne_rejected {p : Probing} {packet : Packet} {resp : BindingResponse} {code : UInt16}
    {reason : Text} : accept p packet resp ≠ .err (.rejected code reason) := by
  intro h
  unfold accept at h
  cases hbound : packet.bound with
  | error error =>
    rw [hbound] at h
    cases h
  | ok bound =>
    rw [hbound] at h
    simp only [fromIo, Exec.ok_bind] at h
    unfold ensure at h
    split_ifs at h <;> cases h

/-! ## Windows -/

section Windows

variable {start : ℕ} {p : Probing} {s m t : Shared}

/-- From `s` to `t` the result is what the first datagram says that answers. -/
def DecidedBy (start : ℕ) (p : Probing) (s t : Shared) (result : Exec ProbeError Observation) :
    Prop :=
  ∃ read packet m, Shared.Reads start s (read ++ [packet]) m ∧ m.arrived <+: t.arrived ∧
    (∀ d ∈ read, d.answers p.server p.txn = false) ∧ packet.answers p.server p.txn = true ∧
      Says p packet result

/-- What has been read before did not answer. -/
theorem DecidedBy.before {read : List Datagram} {result : Exec ProbeError Observation}
    (hread : Shared.Reads start s read m) (hnone : ∀ d ∈ read, d.answers p.server p.txn = false)
    (h : DecidedBy start p m t result) : DecidedBy start p s t result := by
  obtain ⟨later, packet, m', hlater, harrived, hnone', hdecided⟩ := h
  refine ⟨read ++ later, packet, m', ?_, harrived, fun d hd => ?_, hdecided⟩
  · rw [List.append_assoc]
    exact hread.trans hlater
  · rcases List.mem_append.mp hd with hd | hd
    · exact hnone d hd
    · exact hnone' d hd

/-- More may have arrived since. -/
theorem DecidedBy.later {t' : Shared} {result : Exec ProbeError Observation}
    (h : DecidedBy start p s t result) (harrived : t.arrived <+: t'.arrived) :
    DecidedBy start p s t' result := by
  obtain ⟨read, packet, m, hread, hm, hdecided⟩ := h
  exact ⟨read, packet, m, hread, hm.trans harrived, hdecided⟩

/-- What is known when a window ends, from `s` to `t`: if the probe goes on, nothing that has
been read answers; if it has an observation or a refusal, the first answer says so. -/
def WindowReads (start : ℕ) (p : Probing) (s t : Shared) : Exec ProbeError WindowEnd → Prop
  | .ok (.timedOut _) => ∃ read, t.Listens start ∧ Shared.Reads start s read t ∧
      ∀ d ∈ read, d.answers p.server p.txn = false
  | .ok (.observed observation) => DecidedBy start p s t (.ok observation)
  | .err (.rejected code reason) => DecidedBy start p s t (.err (.rejected code reason))
  | _ => True

theorem WindowReads.before {read : List Datagram} {result : Exec ProbeError WindowEnd}
    (hread : Shared.Reads start s read m) (hnone : ∀ d ∈ read, d.answers p.server p.txn = false)
    (h : WindowReads start p m t result) : WindowReads start p s t result := by
  unfold WindowReads at *
  split at h
  · obtain ⟨later, hlistens, hreads, hnone'⟩ := h
    refine ⟨read ++ later, hlistens, hread.trans hreads, fun d hd => ?_⟩
    rcases List.mem_append.mp hd with hd | hd
    · exact hnone d hd
    · exact hnone' d hd
  · exact h.before hread hnone
  · exact h.before hread hnone
  · trivial

/-- A datagram is received: if it answers, the window ends with what it says. -/
theorem WindowReads.answered {packet : Datagram} (hread : Shared.Reads start s [packet] m)
    (harrived : m.arrived <+: t.arrived) (hsource : packet.source = p.server) :
    (∀ bound instant systemTime resp, parseBindingResponse packet.bytes p.txn = .ok resp →
      WindowReads start p s t (do
        return .observed (← accept p ⟨packet.bytes, packet.source, bound, instant, systemTime⟩
          resp))) ∧
    ∀ e code reason, parseBindingResponse packet.bytes p.txn = .err e →
      parseAuthenticatedError packet.bytes p.txn = .ok ⟨code, reason⟩ →
        WindowReads start p s t (.err (.rejected code reason)) := by
  refine ⟨fun bound instant systemTime resp hparse => ?_, fun e code reason hparse herror => ?_⟩
  · have hanswers : packet.answers p.server p.txn = true := by
      unfold Datagram.answers
      rw [hparse, decide_eq_true hsource]
      rfl
    cases haccept : accept p ⟨packet.bytes, packet.source, bound, instant, systemTime⟩ resp with
    | ok observation =>
      exact ⟨[], packet, m, hread, harrived, nofun, hanswers, says_of_accept hparse haccept⟩
    | panic cause => trivial
    | err e =>
      show WindowReads start p s t (.err e)
      unfold WindowReads
      split
      case h_3 code reason heq =>
        obtain rfl := Exec.err.inj heq
        exact absurd haccept accept_ne_rejected
      all_goals trivial
  · have hanswers : packet.answers p.server p.txn = true := by
      unfold Datagram.answers
      rw [hparse, herror, decide_eq_true hsource]
      rfl
    exact ⟨[], packet, m, hread, harrived, nofun, hanswers, .refusal herror⟩

/-- A window is decided by the first datagram that answers. -/
theorem Shared.Listens.window (h : s.Listens start) (p : Probing) (deadline : ℕ)
    (parseDiag : Option ParseError) (polls : List Poll) :
    WindowReads start p s (s.turns deadline polls).2
      (window p deadline parseDiag (s.turns deadline polls).1) := by
  induction polls generalizing s parseDiag with
  | nil => exact ⟨[], h, .refl, nofun⟩
  | cons poll polls ih =>
    obtain ⟨hbefore, hreads⟩ := h.afterAll poll.before
    unfold Shared.turns
    by_cases hover : deadline - poll.now = 0
    · rw [if_pos hover]
      unfold Stun.window
      rw [if_pos hover]
      exact ⟨[], h, .refl, nofun⟩
    · rw [if_neg hover]
      simp only
      cases hrecv : (s.afterAll poll.before).recv.1 with
      | none =>
        obtain ⟨hlistens, hmore⟩ := hbefore.recv_none hrecv
        simp only
        unfold Stun.window
        rw [if_neg hover]
        exact ⟨[], hlistens, hreads.trans hmore, nofun⟩
      | some received =>
        cases received with
        | error error =>
          simp only
          unfold Stun.window
          rw [if_neg hover]
          trivial
        | ok packet =>
          obtain ⟨hlistens, hone⟩ := hbefore.recv_packet hrecv
          obtain ⟨hbehind, hlater⟩ := hlistens.afterAll poll.behind
          have hread : Shared.Reads start s [packet] _ := (hreads.trans hone).trans hlater
          have harrived := Shared.turns_arrived deadline
            ((s.afterAll poll.before).recv.2.afterAll poll.behind) polls
          simp only
          unfold Stun.window
          rw [if_neg hover]
          simp only
          -- a datagram from elsewhere is passed over
          by_cases hsource : packet.source = p.server
          · rw [if_neg (not_not_intro hsource)]
            obtain ⟨hresponse, hrefusal⟩ := WindowReads.answered hread harrived hsource
            cases hparse : parseBindingResponse packet.bytes p.txn with
            | panic cause => trivial
            | ok resp => exact hresponse _ _ _ resp hparse
            | err parseErr =>
              simp only
              cases herror : parseAuthenticatedError packet.bytes p.txn with
              | ok stunErr => exact hrefusal parseErr _ _ hparse herror
              | panic cause => trivial
              | err e =>
                -- neither parser takes it, and the window goes on
                refine (ih hbehind (some parseErr)).before hread fun d hd => ?_
                rw [List.mem_singleton.mp hd]
                simp [Datagram.answers, hparse, herror, Exec.isOk]
          · rw [if_pos hsource]
            refine (ih hbehind parseDiag).before hread fun d hd => ?_
            rw [List.mem_singleton.mp hd]
            simp [Datagram.answers, hsource]

/-- An attempt that sends its request is decided by the first datagram that answers. -/
theorem Shared.Listens.attempt (h : s.Listens start) (p : Probing) (request : Bytes) (timeout : ℕ)
    (plan : AttemptPlan) (hsent : (s.attempt request timeout plan).1.send = .sent) :
    WindowReads start p s (s.attempt request timeout plan).2
      (Stun.window p ((s.attempt request timeout plan).1.opened + timeout) none
        (s.attempt request timeout plan).1.turns) := by
  obtain ⟨hidle, hreads⟩ := h.afterAll plan.idle
  obtain ⟨hlistens, hmore⟩ := hidle.sendTo request plan.sends
  unfold Shared.attempt at hsent ⊢
  simp only at hsent ⊢
  split at hsent
  case h_1 hsend => exact (hlistens.window p _ none plan.polls).before (hreads.trans hmore) nofun
  case h_2 result hnot => exact absurd hsent (hnot ·)

end Windows

/-! ## Attempts -/

/-- A result that a datagram has to account for. -/
def Decisive : Exec ProbeError Observation → Prop
  | .ok _ | .err (.rejected _ _) => True
  | _ => False

/-- The errors of attempts that time out. -/
theorem not_decisive_lastError (parseDiag : Option ParseError) :
    ¬ Decisive (.err (lastError parseDiag)) := by
  cases parseDiag <;> exact id

/-- The errors of the checks at the start. -/
theorem not_decisive_of_failed {e : ProbeError} (h : verdict (.err e) = .failed) :
    ¬ Decisive (.err e) := by
  cases e with
  | rejected code reason => cases h
  | _ => exact id

section Attempts

variable {start : ℕ} {p : Probing} {s : Shared} (request : Bytes) (timeout firstSent : ℕ)
  (plan : ℕ → AttemptPlan)

/-- The attempts from number `k` on are decided by the first datagram that answers, if none has
answered before.  The induction is on the attempts that are left. -/
theorem attempts_decided {left k : ℕ} {lastErr : Option ProbeError}
    (hlistens : (s.beforeAttempt request timeout plan k).Listens start) {read : List Datagram}
    (hread : Shared.Reads start s read (s.beforeAttempt request timeout plan k))
    (hnone : ∀ d ∈ read, d.answers p.server p.txn = false)
    (hlast : ¬ Decisive (.err (lastErr.getD .failed))) {result : Exec ProbeError Observation}
    (hresult : (attemptsFrom (s.transport request timeout firstSent plan) p timeout k left
      lastErr).2 = result) (hdecisive : Decisive result) :
    DecidedBy start p s (s.beforeAttempt request timeout plan (k + left)) result := by
  induction left generalizing k read lastErr with
  | zero =>
    rw [← hresult] at hdecisive
    exact absurd hdecisive hlast
  | succ left ih =>
    -- the datagrams of this attempt are among all that arrive
    have harrived : (s.beforeAttempt request timeout plan (k + 1)).arrived <+:
        (s.beforeAttempt request timeout plan (k + (left + 1))).arrived := by
      rw [Nat.add_comm left 1, ← Nat.add_assoc]
      exact Shared.beforeAttempt_arrived s request timeout plan (k + 1) left
    unfold attemptsFrom at hresult
    simp only at hresult
    split at hresult
    · rw [← hresult] at hdecisive
      exact hdecisive.elim
    · rw [← hresult] at hdecisive
      exact hdecisive.elim
    · next hsent =>
      have hwindow := (hlistens.attempt p request timeout (plan k) hsent).before hread hnone
      split at hresult
      · next observation hobserved =>
        obtain rfl := hresult
        have hdecided : WindowReads start p s _ (.ok (.observed observation)) := hobserved ▸ hwindow
        exact DecidedBy.later hdecided harrived
      · next parseDiag htimedOut =>
        have hgoesOn : WindowReads start p s _ (.ok (.timedOut parseDiag)) := htimedOut ▸ hwindow
        obtain ⟨read', hlistens', hread', hnone'⟩ := hgoesOn
        rw [Nat.add_comm left 1, ← Nat.add_assoc]
        refine ih hlistens' hread' hnone' ?_ hresult
        exact not_decisive_lastError parseDiag
      · next e herror =>
        obtain rfl := hresult
        have hdecided : WindowReads start p s _ (.err e) := herror ▸ hwindow
        cases e with
        | rejected code reason => exact DecidedBy.later hdecided harrived
        | _ => exact hdecisive.elim
      · rw [← hresult] at hdecisive
        exact hdecisive.elim

end Attempts

/-! ## All that arrives -/

/-- Only what looks like STUN can answer. -/
theorem find?_stunOf (server : SocketAddr) (txn : TransactionId) (packets : List Datagram) :
    (stunOf packets).find? (Datagram.answers server txn) =
      packets.find? (Datagram.answers server txn) := by
  unfold stunOf
  rw [List.find?_filter]
  congr 1
  funext packet
  cases hanswers : packet.answers server txn with
  | false => simp
  | true => simp [Datagram.isStun_of_answers hanswers]

/-- Where nothing has arrived before, the first of all answers decides. -/
theorem DecidedBy.find?_arrived {start : ℕ} {p : Probing} {s t : Shared}
    {result : Exec ProbeError Observation} (h : DecidedBy start p s t result)
    (hfresh : s.arrived = []) :
    ∃ packet, t.arrived.find? (Datagram.answers p.server p.txn) = some packet ∧
      Says p packet result := by
  obtain ⟨read, packet, m, ⟨new, hnew, hread⟩, harrived, hnone, hanswers, hsays⟩ := h
  refine ⟨packet, harrived.find?_eq_some ?_, hsays⟩
  rw [Shared.unread, hfresh] at hread
  rw [hnew, hfresh, List.nil_append, ← find?_stunOf, List.find?_eq_some_iff_append]
  refine ⟨hanswers, read, m.unread start, ?_, fun d hd => ?_⟩
  · rw [show stunOf [] = [] from rfl, List.drop_nil, List.nil_append] at hread
    rw [hread, List.append_assoc]
    rfl
  · rw [hnone d hd]
    rfl

/-- A receiver that has just subscribed listens. -/
theorem listens_subscribe (tap : Tap) : (Shared.subscribe tap).Listens tap.packets.pos := by
  obtain ⟨earlier, hsent⟩ := tap.packets.exists_sent (by decide)
  refine ⟨⟨earlier, hsent.pos.symm, ?_⟩, Nat.succ_pos _, le_rfl, Nat.le_add_right _ _⟩
  show tap.packets.Sent (earlier ++ [])
  rwa [List.append_nil]

/-- What is observed on iroh's own socket, and what a probe there is refused with. -/
theorem probeSameSocket_decided {tap : Tap} {plan : ℕ → AttemptPlan} {firstSent : ℕ}
    {server : SocketAddr} {config : ProbeConfig} {txn : TransactionId}
    {result : Exec ProbeError Observation}
    (hresult : (probeSameSocket tap plan firstSent server config txn).2 = result)
    (hdecisive : Decisive result) :
    ∃ packet p,
      (arrivedInAll tap plan config txn).find? (Datagram.answers (canonical server) txn) =
        some packet ∧
      Says p packet result ∧ tap.localAddr = .ok p.localAddr ∧ p.server = canonical server ∧
        p.txn = txn ∧ p.sameSocket = true := by
  unfold probeSameSocket runProbe at hresult
  rcases prepare_cases ((Shared.subscribe tap).transport (encodeBindingRequest txn)
    config.attemptTimeout firstSent plan) server config txn with
      ⟨p, hp, hlocal, hserver, htxn, hsame⟩ | ⟨e, he, hfailed⟩
  · rw [hp] at hresult
    have hdecided := attempts_decided (p := p) (encodeBindingRequest txn) config.attemptTimeout
      firstSent plan (k := 0) (listens_subscribe tap) .refl nofun id hresult hdecisive
    obtain ⟨packet, hfind, hsays⟩ := hdecided.find?_arrived rfl
    rw [hserver, htxn, Nat.zero_add] at hfind
    exact ⟨packet, p, hfind, hsays, hlocal, hserver, htxn, hsame⟩
  · rw [he] at hresult
    rw [← hresult] at hdecisive
    exact absurd hdecisive (not_decisive_of_failed hfailed)

/-- What a probe on iroh's own socket observes, or what it is refused with, is said by the first
of all datagrams reaching the socket from the subscription on that comes from the server and
answers the transaction, whatever else arrives, whoever else listens and however the copies are
read.  All requests are the same, at most as many as configured, and look like STUN. -/
theorem same_socket_decided (tap : Tap) (plan : ℕ → AttemptPlan) (firstSent : ℕ)
    (server : SocketAddr) (config : ProbeConfig) (txn : TransactionId) :
    (∀ observation, (probeSameSocket tap plan firstSent server config txn).2 = .ok observation →
      ∃ packet, (arrivedInAll tap plan config txn).find? (Datagram.answers (canonical server) txn) =
          some packet ∧
        parseBindingResponse packet.bytes txn = .ok ⟨observation.observedAddr⟩ ∧
        usable observation.localAddr observation.observedAddr = true ∧
        observation.server = canonical server ∧ tap.localAddr = .ok observation.localAddr ∧
        observation.sameSocketAsIroh = true) ∧
    (∀ code reason,
      (probeSameSocket tap plan firstSent server config txn).2 = .err (.rejected code reason) →
      ∃ packet, (arrivedInAll tap plan config txn).find? (Datagram.answers (canonical server) txn) =
          some packet ∧
        parseAuthenticatedError packet.bytes txn = .ok ⟨code, reason⟩) ∧
    (probeSameSocket tap plan firstSent server config txn).1.length ≤ config.attempts.toNat ∧
    ∀ request ∈ (probeSameSocket tap plan firstSent server config txn).1,
      request = (encodeBindingRequest txn, canonical server) ∧ isStun request.1 = true := by
  refine ⟨fun observation hok => ?_, fun code reason hrejected => ?_, ?_⟩
  · obtain ⟨packet, p, hfind, hsays, hlocal, hserver, rfl, hsame⟩ :=
      probeSameSocket_decided hok trivial
    cases hsays with
    | address hparse husable hserver' hlocal' hsame' =>
      rw [hlocal', hserver', hsame']
      exact ⟨packet, hfind, hparse, husable, hserver, hlocal, hsame⟩
  · obtain ⟨packet, p, hfind, hsays, -, -, rfl, -⟩ := probeSameSocket_decided hrejected trivial
    cases hsays with
    | refusal herror => exact ⟨packet, hfind, herror⟩
  · unfold probeSameSocket runProbe
    rcases prepare_cases ((Shared.subscribe tap).transport (encodeBindingRequest txn)
      config.attemptTimeout firstSent plan) server config txn with
        ⟨p, hp, -, hserver, htxn, -⟩ | ⟨e, he, -⟩
    · rw [hp]
      obtain ⟨hcount, hrequests⟩ := attemptsFrom_requests ((Shared.subscribe tap).transport
        (encodeBindingRequest txn) config.attemptTimeout firstSent plan) p config.attemptTimeout
          config.attempts.toNat 0 none
      refine ⟨hcount, fun request hr => ?_⟩
      rw [hrequests request hr, hserver, htxn]
      exact ⟨rfl, isStun_encodeBindingRequest txn⟩
    · rw [he]
      exact ⟨Nat.zero_le _, nofun⟩

/-- A buffer that is one datagram. -/
def oneDatagram (bytes : Bytes) (addr : SocketAddr) : Slot :=
  ⟨bytes, addr, bytes.length, bytes.length, le_rfl⟩

/-- The socket of an endpoint that nobody has listened to yet. -/
def sampleTap : Tap := ⟨.new Datagram tapCapacity, 0, false, false, .ok sampleSocket⟩

/-- A datagram of QUIC, an answer of another server and the answer of `sampleServer` arrive at
once. -/
def samplePlan (_ : ℕ) : AttemptPlan where
  idle := []
  sends := [⟨[], .wouldBlock⟩, ⟨[], .sent⟩]
  opened := 5
  polls :=
    [⟨10, [.receives [oneDatagram (0x40 :: List.replicate 40 0) sampleServer,
        oneDatagram (sampleAnswer sampleSocket).bytes (.v4 ⟨1⟩ 1),
        oneDatagram (sampleAnswer sampleSocket).bytes sampleServer]], [], 25, 1790000000025⟩,
      ⟨20, [], [], 30, 1790000000030⟩]

/-- The second copy is the first answer. -/
theorem same_socket_decided_sample : ∃ packet,
    (arrivedInAll sampleTap samplePlan sampleConfig sampleTransaction).find?
      (Datagram.answers (canonical sampleServer) sampleTransaction) = some packet ∧
    parseBindingResponse packet.bytes sampleTransaction = .ok ⟨.v4 ⟨0xc6336407⟩ 9999⟩ := by
  have hok : (probeSameSocket sampleTap samplePlan 3 sampleServer sampleConfig
      sampleTransaction).2 = .ok ⟨"cloudflare-stun".toList, sampleServer, .v4 ⟨0xc6336407⟩ 9999, 27,
        1790000000030, sampleSocket, true⟩ := by
    decide +kernel
  obtain ⟨packet, hfind, hparse, -⟩ := (same_socket_decided sampleTap samplePlan 3 sampleServer
    sampleConfig sampleTransaction).1 _ hok
  exact ⟨packet, hfind, hparse⟩

end IrohExperiment.Stun

/-
# The probe on the socket of an endpoint (`cloudflare-stun/src/probe.rs`)

`probe_same_socket`: a probe that sends on iroh's own socket and reads the copies of the tap, while
iroh goes on to read the socket, others listen as well, and the endpoint may close at any time.
Whatever it observes is said by the first datagram of all that reach the socket which answers it:
the tap keeps nothing back, and a probe that lags fails.

`Shared` and `probeSameSocket` are the source's; the invariant of the receiver is
`Shared.Listens`, and `Shared.Reads` says which datagrams a stretch has read.  The
conclusion is drawn in `Stun.FirstAnswer`.
-/
import IrohExperiment.Stun.Tap

namespace IrohExperiment.Stun

open Rust

/-! ## Listening and sending -/

/-- `Shared`: the tap, and where its receiver has come to.  Beside it stand all datagrams that have
reached the socket since the subscription; nothing is decided by them. -/
structure Shared where
  tap : Tap
  next : ℕ
  arrived : List Datagram

/-- What happens while `recv` waits, what happens until the process looks around behind it, and the
times that are read. -/
structure Poll where
  now : ℕ
  before : List SocketEvent
  behind : List SocketEvent
  instant : ℕ
  systemTime : ℕ

/-- What happens before an attempt, how it sends, when its window opens, and what is met in it. -/
structure AttemptPlan where
  idle : List SocketEvent
  sends : List SendPoll
  opened : ℕ
  polls : List Poll

/-- The length of the buffer of `run_probe` -/
def bufferLen : ℕ := 65535

/-- What `RecvError::Lagged` says. -/
def laggedBy (missed : ℕ) : IoError := ("channel lagged by " ++ toString missed).toList

namespace Shared

/-- `socket.subscribe()` -/
def subscribe (tap : Tap) : Shared :=
  ⟨{ tap with receivers := tap.receivers + 1 }, tap.packets.pos, []⟩

def happens (s : Shared) (event : SocketEvent) : Shared :=
  { s with tap := s.tap.step event, arrived := s.arrived ++ event.datagrams }

def afterAll (s : Shared) (events : List SocketEvent) : Shared := events.foldl happens s

/-- The loop of `StunSocket::send_to`, under the timeout of an attempt -/
def sendLoop (s : Shared) : List SendPoll → SendResult × Shared
  | [] => (.timedOut, s)
  | poll :: polls =>
    let s := s.afterAll poll.events
    if s.tap.closed then (.failed endpointClosed, s)
    else
      match poll.result with
      | .sent => (.sent, s)
      | .wouldBlock => s.sendLoop polls
      | .failed error => (.failed error, s)

/-- `StunSocket::send_to` -/
def sendTo (s : Shared) (packet : Bytes) (polls : List SendPoll) : SendResult × Shared :=
  if isStun packet = false then (.failed notStunPacket, s)
  else
    match s.tap.socket with
    | .error error => (.failed error, s)
    | .ok () => s.sendLoop polls

/-- `Shared::recv`, when it is polled; `none` where it goes on to wait -/
def recv (s : Shared) : Option (Except IoError Datagram) × Shared :=
  if s.tap.closed then (some (.error endpointClosed), s)
  else
    let received := s.tap.packets.recv s.next
    let s := { s with next := received.2 }
    match received.1 with
    | .empty => (none, s)
    | .lagged missed => (some (.error (laggedBy missed)), s)
    | .value packet =>
      if bufferLen < packet.bytes.length then (some (.error oversized), s)
        else (some (.ok packet), s)

/-- The turns of a window, until it closes, a receive fails or nothing is there in time. -/
def turns (deadline : ℕ) (s : Shared) : List Poll → List Turn × Shared
  | [] => ([], s)
  | poll :: polls =>
    if deadline - poll.now = 0 then ([⟨poll.now, .elapsed⟩], s)
    else
      let received := (s.afterAll poll.before).recv
      match received.1 with
      | none => ([⟨poll.now, .elapsed⟩], received.2)
      | some (.error error) => ([⟨poll.now, .failed error⟩], received.2)
      | some (.ok packet) =>
        let s := received.2.afterAll poll.behind
        let rest := s.turns deadline polls
        (⟨poll.now, .datagram
          ⟨packet.bytes, packet.source, s.tap.localAddr, poll.instant, poll.systemTime⟩⟩ :: rest.1,
          rest.2)

/-- One attempt. -/
def attempt (s : Shared) (request : Bytes) (timeout : ℕ) (plan : AttemptPlan) : Attempt × Shared :=
  let sent := (s.afterAll plan.idle).sendTo request plan.sends
  match sent.1 with
  | .sent =>
    let received := sent.2.turns (plan.opened + timeout) plan.polls
    (⟨.sent, plan.opened, received.1⟩, received.2)
  | result => (⟨result, plan.opened, []⟩, sent.2)

/-- Before attempt `k`. -/
def beforeAttempt (s : Shared) (request : Bytes) (timeout : ℕ) (plan : ℕ → AttemptPlan) : ℕ → Shared
  | 0 => s
  | k + 1 => ((s.beforeAttempt request timeout plan k).attempt request timeout (plan k)).2

/-- The transport of a probe that listens. -/
def transport (s : Shared) (request : Bytes) (timeout firstSent : ℕ) (plan : ℕ → AttemptPlan) :
    Transport where
  localAddr := s.tap.localAddr
  sameSocket := true
  firstSent := firstSent
  attempt k := ((s.beforeAttempt request timeout plan k).attempt request timeout (plan k)).1

end Shared

/-- `probe_same_socket`: the requests that are sent, and the result -/
def probeSameSocket (tap : Tap) (plan : ℕ → AttemptPlan) (firstSent : ℕ) (server : SocketAddr)
    (config : ProbeConfig) (txn : TransactionId) :
    List (Bytes × SocketAddr) × Exec ProbeError Observation :=
  runProbe ((Shared.subscribe tap).transport (encodeBindingRequest txn) config.attemptTimeout
    firstSent plan) server config txn

/-- All datagrams that reach the socket from the subscription to the end of the last attempt. -/
def arrivedInAll (tap : Tap) (plan : ℕ → AttemptPlan) (config : ProbeConfig) (txn : TransactionId) :
    List Datagram :=
  ((Shared.subscribe tap).beforeAttempt (encodeBindingRequest txn) config.attemptTimeout plan
    config.attempts.toNat).arrived

/-! ## Reading along -/

namespace Shared

/-- The receiver has come to a place between the subscription and now. -/
structure Listens (start : ℕ) (s : Shared) : Prop where
  sent : ∃ earlier, earlier.length = start ∧ s.tap.packets.Sent (earlier ++ stunOf s.arrived)
  listens : 0 < s.tap.receivers
  start_le : start ≤ s.next
  next_le : s.next ≤ start + (stunOf s.arrived).length

/-- What waits for the receiver, as far as it looks like STUN. -/
def unread (start : ℕ) (s : Shared) : List Datagram := (stunOf s.arrived).drop (s.next - start)

/-- From `s` to `t`, the datagrams in `read` are read and no others are passed over. -/
def Reads (start : ℕ) (s : Shared) (read : List Datagram) (t : Shared) : Prop :=
  ∃ new, t.arrived = s.arrived ++ new ∧ s.unread start ++ stunOf new = read ++ t.unread start

variable {start : ℕ} {s t u : Shared} {read more : List Datagram}

theorem Reads.refl : Reads start s [] s := ⟨[], (List.append_nil _).symm, List.append_nil _⟩

theorem Reads.trans (h : Reads start s read t) (h' : Reads start t more u) :
    Reads start s (read ++ more) u := by
  obtain ⟨new, harrived, hread⟩ := h
  obtain ⟨new', harrived', hread'⟩ := h'
  refine ⟨new ++ new', ?_, ?_⟩
  · rw [harrived', harrived, List.append_assoc]
  · rw [stunOf_append, ← List.append_assoc, hread, List.append_assoc, hread', List.append_assoc]

/-- What happens at the socket only adds to what waits. -/
theorem Listens.happens (h : s.Listens start) (event : SocketEvent) :
    (s.happens event).Listens start ∧ Reads start s [] (s.happens event) := by
  obtain ⟨⟨earlier, hlen, hsent⟩, hlistens, hstart, hnext⟩ := h
  have hle : s.next - start ≤ (stunOf s.arrived).length := by omega
  have hmore : (stunOf s.arrived).length ≤ (stunOf (s.arrived ++ event.datagrams)).length := by
    rw [stunOf_append, List.length_append]
    exact Nat.le_add_right _ _
  refine ⟨⟨⟨earlier, hlen, ?_⟩, ?_, hstart, hnext.trans (Nat.add_le_add_left hmore _)⟩,
    event.datagrams, rfl, ?_⟩
  · show (s.tap.step event).packets.Sent (earlier ++ stunOf (s.arrived ++ event.datagrams))
    rw [Tap.step_packets hlistens, stunOf_append, ← List.append_assoc]
    exact hsent.sendAll _
  · exact Tap.step_receivers hlistens event
  · show (stunOf s.arrived).drop (s.next - start) ++ stunOf event.datagrams =
      (stunOf (s.arrived ++ event.datagrams)).drop (s.next - start)
    rw [stunOf_append, List.drop_append_of_le_length hle]

theorem Listens.afterAll (h : s.Listens start) (events : List SocketEvent) :
    (s.afterAll events).Listens start ∧ Reads start s [] (s.afterAll events) := by
  induction events generalizing s with
  | nil => exact ⟨h, .refl⟩
  | cons event events ih =>
    obtain ⟨hevent, hreads⟩ := h.happens event
    obtain ⟨hevents, hmore⟩ := ih hevent
    exact ⟨hevents, hreads.trans hmore⟩

theorem Listens.sendLoop (h : s.Listens start) (polls : List SendPoll) :
    (s.sendLoop polls).2.Listens start ∧ Reads start s [] (s.sendLoop polls).2 := by
  induction polls generalizing s with
  | nil => exact ⟨h, .refl⟩
  | cons poll polls ih =>
    obtain ⟨hpoll, hreads⟩ := h.afterAll poll.events
    unfold Shared.sendLoop
    simp only
    split
    · exact ⟨hpoll, hreads⟩
    · split
      · exact ⟨hpoll, hreads⟩
      · obtain ⟨hpolls, hmore⟩ := ih hpoll
        exact ⟨hpolls, hreads.trans hmore⟩
      · exact ⟨hpoll, hreads⟩

theorem Listens.sendTo (h : s.Listens start) (packet : Bytes) (polls : List SendPoll) :
    (s.sendTo packet polls).2.Listens start ∧ Reads start s [] (s.sendTo packet polls).2 := by
  unfold Shared.sendTo
  split
  · exact ⟨h, .refl⟩
  · split
    · exact ⟨h, .refl⟩
    · exact h.sendLoop polls

/-- A datagram that is received is the next one that waits. -/
theorem Listens.recv_packet {packet : Datagram} (h : s.Listens start)
    (hrecv : s.recv.1 = some (.ok packet)) :
    s.recv.2.Listens start ∧ Reads start s [packet] s.recv.2 := by
  obtain ⟨⟨earlier, hlen, hsent⟩, hlistens, hstart, hnext⟩ := h
  unfold Shared.recv at hrecv ⊢
  split at hrecv
  case isTrue hclosed => cases hrecv
  case isFalse hclosed =>
    rw [if_neg hclosed]
    simp only at hrecv ⊢
    cases hvalue : (s.tap.packets.recv s.next).1 with
    | empty =>
      rw [hvalue] at hrecv
      cases hrecv
    | lagged missed =>
      rw [hvalue] at hrecv
      cases hrecv
    | value x =>
      obtain ⟨hx, hone⟩ := hsent.recv_value hvalue
      rw [hvalue] at hrecv
      simp only at hrecv ⊢
      split at hrecv
      case isTrue hlong => cases hrecv
      case isFalse hlong =>
        rw [if_neg hlong, hone]
        obtain rfl : x = packet := Except.ok.inj (Option.some.inj hrecv)
        rw [List.getElem?_append_right (hlen.symm ▸ hstart), hlen] at hx
        obtain ⟨hlt, hget⟩ := List.getElem?_eq_some_iff.mp hx
        have hle : s.next + 1 ≤ start + (stunOf s.arrived).length := by omega
        refine ⟨⟨⟨earlier, hlen, hsent⟩, hlistens, Nat.le_succ_of_le hstart, hle⟩, [],
          (List.append_nil _).symm, ?_⟩
        show (stunOf s.arrived).drop (s.next - start) ++ [] =
          [x] ++ (stunOf s.arrived).drop (s.next + 1 - start)
        rw [List.append_nil, List.drop_eq_getElem_cons hlt, hget, Nat.sub_add_comm hstart]
        rfl

theorem Listens.recv_none (h : s.Listens start) (hrecv : s.recv.1 = none) :
    s.recv.2.Listens start ∧ Reads start s [] s.recv.2 := by
  have hsame : s.recv.2 = s := by
    obtain ⟨⟨earlier, hlen, hsent⟩, hlistens, hstart, hnext⟩ := h
    unfold Shared.recv at hrecv ⊢
    split at hrecv
    case isTrue hclosed => cases hrecv
    case isFalse hclosed =>
      rw [if_neg hclosed]
      simp only at hrecv ⊢
      cases hvalue : (s.tap.packets.recv s.next).1 with
      | empty => rw [(hsent.recv_empty hvalue).2]
      | lagged missed =>
        rw [hvalue] at hrecv
        cases hrecv
      | value x =>
        rw [hvalue] at hrecv
        simp only at hrecv
        split at hrecv <;> cases hrecv
  rw [hsame]
  exact ⟨h, .refl⟩

/-! ## What has arrived -/

theorem afterAll_arrived (s : Shared) (events : List SocketEvent) :
    s.arrived <+: (s.afterAll events).arrived := by
  induction events generalizing s with
  | nil => exact List.prefix_rfl
  | cons event events ih => exact (List.prefix_append _ _).trans (ih (s.happens event))

theorem recv_arrived (s : Shared) : s.recv.2.arrived = s.arrived := by
  unfold Shared.recv
  split
  · rfl
  · simp only
    split
    · rfl
    · rfl
    · split <;> rfl

theorem sendTo_arrived (s : Shared) (packet : Bytes) (polls : List SendPoll) :
    s.arrived <+: (s.sendTo packet polls).2.arrived := by
  have hloop : ∀ s : Shared, s.arrived <+: (s.sendLoop polls).2.arrived := by
    induction polls with
    | nil => exact fun s => List.prefix_rfl
    | cons poll polls ih =>
      intro s
      have hpoll := afterAll_arrived s poll.events
      unfold sendLoop
      simp only
      split
      · exact hpoll
      · split
        · exact hpoll
        · exact hpoll.trans (ih _)
        · exact hpoll
  unfold sendTo
  split
  · exact List.prefix_rfl
  · split
    · exact List.prefix_rfl
    · exact hloop s

theorem turns_arrived (deadline : ℕ) (s : Shared) (polls : List Poll) :
    s.arrived <+: (s.turns deadline polls).2.arrived := by
  induction polls generalizing s with
  | nil => exact List.prefix_rfl
  | cons poll polls ih =>
    have hrecv : s.arrived <+: (s.afterAll poll.before).recv.2.arrived := by
      rw [recv_arrived]
      exact afterAll_arrived s poll.before
    unfold turns
    split
    · exact List.prefix_rfl
    · simp only
      split
      · exact hrecv
      · exact hrecv
      · exact (hrecv.trans (afterAll_arrived _ poll.behind)).trans (ih _)

theorem attempt_arrived (s : Shared) (request : Bytes) (timeout : ℕ) (plan : AttemptPlan) :
    s.arrived <+: (s.attempt request timeout plan).2.arrived := by
  have hsent : s.arrived <+: ((s.afterAll plan.idle).sendTo request plan.sends).2.arrived :=
    (afterAll_arrived s plan.idle).trans (sendTo_arrived _ request plan.sends)
  unfold attempt
  simp only
  split
  · exact hsent.trans (turns_arrived _ _ plan.polls)
  · exact hsent

theorem beforeAttempt_arrived (s : Shared) (request : Bytes) (timeout : ℕ)
    (plan : ℕ → AttemptPlan) (k more : ℕ) :
    (s.beforeAttempt request timeout plan k).arrived <+:
      (s.beforeAttempt request timeout plan (k + more)).arrived := by
  induction more with
  | zero => exact List.prefix_rfl
  | succ more ih => exact ih.trans (attempt_arrived _ request timeout _)

end Shared

end IrohExperiment.Stun

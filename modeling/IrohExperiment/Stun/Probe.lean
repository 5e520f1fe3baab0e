/-
# The probe (`cloudflare-stun/src/probe.rs`)

`run_probe`: the requests that are sent, and the datagrams that are received in the
window of each attempt.  What becomes of a probe is decided by the first datagram from
its server that answers its transaction.

The transport is a parameter: what is received when, with the clock and the binding of the
socket at that time.  The main result is `probe_decided`; `probe_rebound` shows what an
answer on a socket that has been bound anew comes to.
-/
import IrohExperiment.Stun.RoundTrip

namespace IrohExperiment.Stun

open Rust

/-! ## The surroundings of a probe -/

/-- Probe tuning knobs; the clock counts milliseconds. -/
structure ProbeConfig where
  attemptTimeout : ℕ
  attempts : UInt32
  deriving DecidableEq, Repr

/-- An `io::Error`, by its text. -/
abbrev IoError := Text

/-- A datagram, and what the process sees when it looks around right after it. -/
structure Packet where
  bytes : Bytes
  source : SocketAddr
  /-- What `local_addr` gives. -/
  bound : Except IoError SocketAddr
  /-- The clock, for the round-trip time. -/
  instant : ℕ
  /-- The system time. -/
  systemTime : ℕ

/-- How `timeout(remaining, recv)` ends. -/
inductive Received where
  | elapsed
  | failed (error : IoError)
  | datagram (packet : Packet)

/-- One turn of the receiving loop: the clock at its head, and what it receives. -/
structure Turn where
  now : ℕ
  received : Received

/-- How `timeout(attempt_timeout, send)` ends. -/
inductive SendResult where
  | sent
  | timedOut
  | failed (error : IoError)

/-- One attempt: how sending ends, the clock after it, and the turns of its window. -/
structure Attempt where
  send : SendResult
  opened : ℕ
  turns : List Turn

/-- What a probe meets. -/
structure Transport where
  localAddr : Except IoError SocketAddr
  sameSocket : Bool
  firstSent : ℕ
  attempt : ℕ → Attempt

/-- One successful external-address observation. -/
structure Observation where
  method : Text
  server : SocketAddr
  observedAddr : SocketAddr
  rtt : ℕ
  observedAt : ℕ
  localAddr : SocketAddr
  sameSocketAsIroh : Bool
  deriving DecidableEq, Repr

/-- Why a probe fails. -/
inductive ProbeError where
  /-- `probe attempts must be positive` -/
  | noAttempts
  /-- `probe timeout must be positive` -/
  | noTimeout
  /-- `probe socket binding` -/
  | binding (error : IoError)
  /-- `probe address family mismatch` -/
  | familyMismatch
  /-- `STUN send timed out` -/
  | sendTimedOut
  /-- `sending binding request` -/
  | sending (error : IoError)
  /-- `recv failed` -/
  | recvFailed (error : IoError)
  /-- The error of `local_addr` after a response. -/
  | unbound (error : IoError)
  /-- `socket rebound during probe` -/
  | rebound
  /-- `unusable STUN observed address` -/
  | unusable
  /-- `STUN server rejected probe: {code} {reason}` -/
  | rejected (code : UInt16) (reason : Text)
  /-- `datagrams arrived but none matched` -/
  | noneMatched (error : ParseError)
  /-- `no response within attempt window` -/
  | noResponse
  /-- `probe failed` -/
  | failed
  deriving DecidableEq, Repr

/-! ## The probe -/

/-- `Result<SocketAddr, io::Error>` -/
def fromIo {α : Type} (result : Except IoError α) (e : IoError → ProbeError) : Exec ProbeError α :=
  match result with
  | .ok a => .ok a
  | .error error => .err (e error)

/-- The address can be the external address of a socket that is bound to `local`. -/
def usable (localAddr addr : SocketAddr) : Bool :=
  addr.isIpv4 = localAddr.isIpv4 && !addr.ip.isUnspecified && !addr.ip.isMulticast && addr.port != 0

/-- What all attempts of a probe have in common. -/
structure Probing where
  server : SocketAddr
  localAddr : SocketAddr
  txn : TransactionId
  firstSent : ℕ
  sameSocket : Bool

/-- What is done with a response. -/
def accept (p : Probing) (packet : Packet) (resp : BindingResponse) :
    Exec ProbeError Observation := do
  let bound ← fromIo packet.bound .unbound
  ensure (bound = p.localAddr) .rebound
  ensure (usable p.localAddr resp.xorMappedAddress = true) .unusable
  return { method := "cloudflare-stun".toList, server := p.server,
           observedAddr := resp.xorMappedAddress, rtt := packet.instant - p.firstSent,
           observedAt := packet.systemTime, localAddr := p.localAddr,
           sameSocketAsIroh := p.sameSocket }

/-- How the window of an attempt ends, unless the probe ends with it. -/
inductive WindowEnd where
  | timedOut (parseDiag : Option ParseError)
  | observed (observation : Observation)

/-- The loop over the turns of a window. -/
def window (p : Probing) (deadline : ℕ) : Option ParseError → List Turn → Exec ProbeError WindowEnd
  | parseDiag, [] => .ok (.timedOut parseDiag)
  | parseDiag, turn :: turns =>
    if deadline - turn.now = 0 then .ok (.timedOut parseDiag)
    else
      match turn.received with
      | .elapsed => .ok (.timedOut parseDiag)
      | .failed error => .err (.recvFailed error)
      | .datagram packet =>
        if packet.source ≠ p.server then window p deadline parseDiag turns
        else
          match parseBindingResponse packet.bytes p.txn with
          | .ok resp => do return .observed (← accept p packet resp)
          | .panic cause => .panic cause
          | .err parseErr =>
            match parseAuthenticatedError packet.bytes p.txn with
            | .ok stunErr => .err (.rejected stunErr.code stunErr.reason)
            | .panic cause => .panic cause
            | .err _ => window p deadline (some parseErr) turns

/-- What is remembered of an attempt that timed out. -/
def lastError : Option ParseError → ProbeError
  | some parseErr => .noneMatched parseErr
  | none => .noResponse

/-- The attempts that are left, from number `k` on, and the requests that are sent in
them.  Before each attempt but the first one the process sleeps for a while. -/
def attemptsFrom (t : Transport) (p : Probing) (timeout : ℕ) :
    ℕ → ℕ → Option ProbeError → List (Bytes × SocketAddr) × Exec ProbeError Observation
  | _, 0, lastErr => ([], .err (lastErr.getD .failed))
  | k, left + 1, _ =>
    let request := (encodeBindingRequest p.txn, p.server)
    match (t.attempt k).send with
    | .timedOut => ([request], .err .sendTimedOut)
    | .failed error => ([request], .err (.sending error))
    | .sent =>
      match window p ((t.attempt k).opened + timeout) none (t.attempt k).turns with
      | .ok (.observed observation) => ([request], .ok observation)
      | .ok (.timedOut parseDiag) =>
        let rest := attemptsFrom t p timeout (k + 1) left (some (lastError parseDiag))
        (request :: rest.1, rest.2)
      | .err e => ([request], .err e)
      | .panic cause => ([request], .panic cause)

/-- `SocketAddr::new(server.ip().to_canonical(), server.port())` -/
def canonical (server : SocketAddr) : SocketAddr := .new server.ip.toCanonical server.port

/-- The checks of `run_probe` before it sends anything. -/
def prepare (t : Transport) (server : SocketAddr) (config : ProbeConfig) (txn : TransactionId) :
    Exec ProbeError Probing := do
  ensure (0 < config.attempts) .noAttempts
  ensure (config.attemptTimeout ≠ 0) .noTimeout
  let localAddr ← fromIo t.localAddr .binding
  ensure (localAddr.isIpv4 = (canonical server).isIpv4) .familyMismatch
  return { server := canonical server, localAddr, txn, firstSent := t.firstSent,
           sameSocket := t.sameSocket }

/-- `run_probe`: the requests that are sent, and the result; `txn` is the random
transaction id. -/
def runProbe (t : Transport) (server : SocketAddr) (config : ProbeConfig) (txn : TransactionId) :
    List (Bytes × SocketAddr) × Exec ProbeError Observation :=
  match prepare t server config txn with
  | .ok p => attemptsFrom t p config.attemptTimeout 0 config.attempts.toNat none
  | .err e => ([], .err e)
  | .panic cause => ([], .panic cause)

/-! ## Requests -/

/-- Every attempt sends one request, and it is the same one. -/
theorem attemptsFrom_requests (t : Transport) (p : Probing) (timeout left k : ℕ)
    (lastErr : Option ProbeError) :
    (attemptsFrom t p timeout k left lastErr).1.length ≤ left ∧
      ∀ request ∈ (attemptsFrom t p timeout k left lastErr).1,
        request = (encodeBindingRequest p.txn, p.server) := by
  induction left generalizing k lastErr with
  | zero => exact ⟨le_rfl, nofun⟩
  | succ left ih =>
    have hone : [(encodeBindingRequest p.txn, p.server)].length ≤ left + 1 ∧
        ∀ request ∈ [(encodeBindingRequest p.txn, p.server)],
          request = (encodeBindingRequest p.txn, p.server) :=
      ⟨Nat.succ_le_succ (Nat.zero_le _), fun request hr => List.mem_singleton.mp hr⟩
    unfold attemptsFrom
    split
    · exact hone
    · exact hone
    · split
      · exact hone
      · rename_i parseDiag _
        have h := ih (k + 1) (some (lastError parseDiag))
        refine ⟨Nat.succ_le_succ h.1, fun request hr => ?_⟩
        rcases List.mem_cons.mp hr with rfl | hr
        · rfl
        · exact h.2 request hr
      · exact hone
      · exact hone

/-! ## Verdicts -/

/-- What the result of a probe says about its server. -/
inductive Verdict where
  | address (addr : SocketAddr)
  | rejected (code : UInt16) (reason : Text)
  | failed
  | panicked
  deriving DecidableEq, Repr

/-- Times, and the reasons of failures, are left out. -/
def verdict : Exec ProbeError Observation → Verdict
  | .ok observation => .address observation.observedAddr
  | .err (.rejected code reason) => .rejected code reason
  | .err _ => .failed
  | .panic _ => .panicked

/-- The datagram comes from the server and answers the request. -/
def decisive (server : SocketAddr) (txn : TransactionId) (packet : Packet) : Bool :=
  packet.source = server &&
    ((parseBindingResponse packet.bytes txn).isOk ||
      (parseAuthenticatedError packet.bytes txn).isOk)

/-- What a datagram that answers the request says. -/
def judge (localAddr : SocketAddr) (txn : TransactionId) (packet : Packet) : Verdict :=
  match parseBindingResponse packet.bytes txn with
  | .ok resp =>
    match packet.bound with
    | .ok bound =>
      if bound = localAddr ∧ usable localAddr resp.xorMappedAddress = true then
        .address resp.xorMappedAddress
      else .failed
    | .error _ => .failed
  | _ =>
    match parseAuthenticatedError packet.bytes txn with
    | .ok stunErr => .rejected stunErr.code stunErr.reason
    | _ => .failed

/-- The datagrams that are received before a window closes. -/
def windowPackets (deadline : ℕ) : List Turn → List Packet
  | [] => []
  | turn :: turns =>
    if deadline - turn.now = 0 then []
    else
      match turn.received with
      | .datagram packet => packet :: windowPackets deadline turns
      | _ => []

/-- The datagrams that are received in the attempts that are left. -/
def packetsFrom (t : Transport) (timeout : ℕ) : ℕ → ℕ → List Packet
  | _, 0 => []
  | k, left + 1 =>
    match (t.attempt k).send with
    | .sent => windowPackets ((t.attempt k).opened + timeout) (t.attempt k).turns ++
        packetsFrom t timeout (k + 1) left
    | _ => []

/-- The datagrams that are delivered to a probe over all its attempts. -/
def delivered (t : Transport) (server : SocketAddr) (config : ProbeConfig) (txn : TransactionId) :
    List Packet :=
  match prepare t server config txn with
  | .ok _ => packetsFrom t config.attemptTimeout 0 config.attempts.toNat
  | _ => []

/-- The length field of the datagram does not exceed its real length. -/
def LengthFits (buf : Bytes) : Prop := 20 ≤ buf.length → 20 + messageLength buf ≤ buf.length

instance (buf : Bytes) : Decidable (LengthFits buf) := inferInstanceAs (Decidable (_ → _))

/-- No receive error. -/
def Receives (turns : List Turn) : Prop := ∀ turn ∈ turns, ∀ error, turn.received ≠ .failed error

/-- Datagrams whose length fits do not make the parsers panic. -/
theorem LengthFits.returns {buf : Bytes} (h : LengthFits buf) (txn : TransactionId) :
    (parseBindingResponse buf txn).Returns ∧ (parseAuthenticatedError buf txn).Returns := by
  by_cases hlen : 20 ≤ buf.length
  · have hfits := h hlen
    obtain ⟨hd, body, rfl⟩ := exists_header hlen
    rw [messageLength_encode] at hfits
    rw [parseBindingResponse_returns, parseAuthenticatedError_returns]
    exact ⟨fun _ => hfits, fun _ => hfits⟩
  · have hshort : ¬ headerLen ≤ buf.length := hlen
    rw [parseBindingResponse, parseAuthenticatedError, ensure_neg hshort, ensure_neg hshort]
    exact ⟨trivial, trivial⟩

section Decision

variable {t : Transport} {p : Probing}

/-- A datagram of the server that does not answer the request is passed over. -/
theorem not_decisive {packet : Packet} {parseErr parseErr' : ParseError}
    (hresp : parseBindingResponse packet.bytes p.txn = .err parseErr)
    (herr : parseAuthenticatedError packet.bytes p.txn = .err parseErr') :
    decisive p.server p.txn packet = false := by
  simp [decisive, hresp, herr, Exec.isOk]

theorem accept_returns (p : Probing) (packet : Packet) (resp : BindingResponse) :
    (accept p packet resp).Returns := by
  unfold accept ensure
  cases packet.bound with
  | error error => trivial
  | ok bound =>
    simp only [fromIo, Exec.ok_bind]
    split_ifs <;> trivial

/-- What is done with a response is what it says. -/
theorem verdict_accept {packet : Packet} {resp : BindingResponse}
    (hresp : parseBindingResponse packet.bytes p.txn = .ok resp) :
    verdict (accept p packet resp) = judge p.localAddr p.txn packet := by
  unfold judge accept
  rw [hresp]
  cases hbound : packet.bound with
  | error error => rfl
  | ok bound =>
    simp only [fromIo, Exec.ok_bind]
    by_cases heq : bound = p.localAddr
    · rw [ensure_pos heq, Exec.ok_bind]
      by_cases husable : usable p.localAddr resp.xorMappedAddress = true
      · rw [ensure_pos husable, if_pos ⟨heq, husable⟩]
        rfl
      · rw [ensure_neg husable, if_neg fun h => husable h.2]
        rfl
    · rw [ensure_neg heq, if_neg fun h => heq h.1]
      rfl

/-- What the end of a window says about the datagrams that were received in it. -/
def WindowEnd.Agrees (p : Probing) (packets : List Packet) : Exec ProbeError WindowEnd → Prop
  | .ok (.timedOut _) => packets.find? (decisive p.server p.txn) = none
  | .ok (.observed observation) => ∃ packet, packets.find? (decisive p.server p.txn) = some packet ∧
      judge p.localAddr p.txn packet = .address observation.observedAddr
  | .err e => ∃ packet, packets.find? (decisive p.server p.txn) = some packet ∧
      judge p.localAddr p.txn packet = verdict (.err e)
  | .panic _ => False

/-- A datagram that is not decisive changes nothing. -/
theorem WindowEnd.Agrees.cons {packets : List Packet} {packet : Packet}
    (hpacket : decisive p.server p.txn packet = false) {result : Exec ProbeError WindowEnd}
    (h : WindowEnd.Agrees p packets result) : WindowEnd.Agrees p (packet :: packets) result := by
  unfold WindowEnd.Agrees at *
  rwa [List.find?_cons_of_neg (by simp [hpacket])]

/-- The window of an attempt is decided by its first decisive datagram. -/
theorem window_agrees (deadline : ℕ) (parseDiag : Option ParseError) {turns : List Turn}
    (hreceives : Receives turns)
    (hfits : ∀ packet ∈ windowPackets deadline turns, LengthFits packet.bytes) :
    WindowEnd.Agrees p (windowPackets deadline turns) (window p deadline parseDiag turns) := by
  induction turns generalizing parseDiag with
  | nil => rfl
  | cons turn turns ih =>
    have htail : Receives turns := fun turn hturn => hreceives turn (List.mem_cons_of_mem _ hturn)
    rw [windowPackets] at hfits ⊢
    rw [window]
    by_cases hclosed : deadline - turn.now = 0
    · rw [if_pos hclosed, if_pos hclosed]
      rfl
    · rw [if_neg hclosed] at hfits ⊢
      rw [if_neg hclosed]
      cases hreceived : turn.received with
      | elapsed => rfl
      | failed error => exact absurd hreceived (hreceives turn List.mem_cons_self error)
      | datagram packet =>
        simp only [hreceived] at hfits ⊢
        have hrest := fun parseDiag => ih parseDiag htail fun packet hp =>
          hfits packet (List.mem_cons_of_mem _ hp)
        by_cases hsource : packet.source = p.server
        · rw [if_neg (not_not.mpr hsource)]
          obtain ⟨hresp, herr⟩ := (hfits packet List.mem_cons_self).returns p.txn
          -- the window gets no further than a decisive packet
          have hfind : ∀ packets, decisive p.server p.txn packet = true →
              (packet :: packets).find? (decisive p.server p.txn) = some packet :=
            fun packets hd => List.find?_cons_of_pos hd
          cases hparse : parseBindingResponse packet.bytes p.txn with
          | ok resp =>
            have hd : decisive p.server p.txn packet = true := by
              simp [decisive, hsource, hparse, Exec.isOk]
            have hverdict := verdict_accept hparse
            simp only
            cases haccept : accept p packet resp with
            | ok observation => exact ⟨packet, hfind _ hd, by rw [← hverdict, haccept]; rfl⟩
            | err e => exact ⟨packet, hfind _ hd, by rw [← hverdict, haccept]⟩
            | panic cause =>
              have hreturns := accept_returns p packet resp
              rw [haccept] at hreturns
              cases hreturns
          | err parseErr =>
            simp only
            cases hauth : parseAuthenticatedError packet.bytes p.txn with
            | ok stunErr =>
              have hd : decisive p.server p.txn packet = true := by
                simp [decisive, hsource, hauth, Exec.isOk]
              refine ⟨packet, hfind _ hd, ?_⟩
              rw [judge, hparse, hauth]
              rfl
            | err parseErr' => exact (hrest _).cons (not_decisive hparse hauth)
            | panic cause => rw [hauth] at herr; cases herr
          | panic cause => rw [hparse] at hresp; cases hresp
        · rw [if_pos hsource]
          refine (hrest _).cons ?_
          simp [decisive, hsource]

theorem find?_decisive_append {packets rest : List Packet}
    (hnone : packets.find? (decisive p.server p.txn) = none) :
    (packets ++ rest).find? (decisive p.server p.txn) = rest.find? (decisive p.server p.txn) := by
  rw [List.find?_append, hnone, Option.none_or]

/-- What a list of datagrams says: the first decisive one decides. -/
def judgeFirst (p : Probing) (packets : List Packet) : Verdict :=
  match packets.find? (decisive p.server p.txn) with
  | some packet => judge p.localAddr p.txn packet
  | none => .failed

/-- The attempts are decided by their first decisive datagram. -/
theorem attemptsFrom_verdict (timeout left k : ℕ) (lastErr : Option ProbeError)
    (hlast : verdict (.err (lastErr.getD .failed)) = .failed)
    (hreceives : ∀ k, Receives (t.attempt k).turns)
    (hfits : ∀ packet ∈ packetsFrom t timeout k left, LengthFits packet.bytes) :
    verdict (attemptsFrom t p timeout k left lastErr).2 =
      judgeFirst p (packetsFrom t timeout k left) := by
  induction left generalizing k lastErr with
  | zero => exact hlast
  | succ left ih =>
    unfold judgeFirst
    rw [packetsFrom] at hfits ⊢
    rw [attemptsFrom]
    cases hsend : (t.attempt k).send with
    | timedOut => rfl
    | failed error => rfl
    | sent =>
      simp only [hsend] at hfits ⊢
      have hwindow := window_agrees (p := p) ((t.attempt k).opened + timeout) none (hreceives k)
        fun packet hp => hfits packet (List.mem_append_left _ hp)
      cases hend : window p ((t.attempt k).opened + timeout) none (t.attempt k).turns with
      | panic cause => rw [hend] at hwindow; exact hwindow.elim
      | err e =>
        rw [hend] at hwindow
        obtain ⟨packet, hfind, hjudge⟩ := hwindow
        simp only [List.find?_append, hfind, Option.some_or, hjudge]
      | ok windowEnd =>
        rw [hend] at hwindow
        cases windowEnd with
        | observed observation =>
          obtain ⟨packet, hfind, hjudge⟩ := hwindow
          simp only [List.find?_append, hfind, Option.some_or, hjudge]
          rfl
        | timedOut parseDiag =>
          simp only [find?_decisive_append hwindow]
          refine ih (k + 1) (some (lastError parseDiag)) ?_ fun packet hp =>
            hfits packet (List.mem_append_right _ hp)
          cases parseDiag <;> rfl

end Decision

/-- No receive error, and no datagram whose length field exceeds its real length. -/
structure Undisturbed (t : Transport) (server : SocketAddr) (config : ProbeConfig)
    (txn : TransactionId) : Prop where
  receives : ∀ k, Receives (t.attempt k).turns
  fits : ∀ packet ∈ delivered t server config txn, LengthFits packet.bytes

/-- The checks at the start succeed, or the probe fails at once. -/
theorem prepare_cases (t : Transport) (server : SocketAddr) (config : ProbeConfig)
    (txn : TransactionId) :
    (∃ p, prepare t server config txn = .ok p ∧ t.localAddr = .ok p.localAddr ∧
      p.server = canonical server ∧ p.txn = txn ∧ p.sameSocket = t.sameSocket) ∨
    ∃ e, prepare t server config txn = .err e ∧ verdict (.err e) = .failed := by
  unfold prepare
  by_cases hattempts : 0 < config.attempts
  · rw [ensure_pos hattempts, Exec.ok_bind]
    by_cases htimeout : config.attemptTimeout ≠ 0
    · rw [ensure_pos htimeout, Exec.ok_bind]
      cases hlocal : t.localAddr with
      | error error => exact .inr ⟨_, rfl, rfl⟩
      | ok localAddr =>
        simp only [fromIo, Exec.ok_bind]
        by_cases hfamily : localAddr.isIpv4 = (canonical server).isIpv4
        · rw [ensure_pos hfamily]
          exact .inl ⟨_, rfl, rfl, rfl, rfl, rfl⟩
        · rw [ensure_neg hfamily]
          exact .inr ⟨_, rfl, rfl⟩
    · rw [ensure_neg htimeout]
      exact .inr ⟨_, rfl, rfl⟩
  · rw [ensure_neg hattempts]
    exact .inr ⟨_, rfl, rfl⟩

/-- The first decisive datagram decides. -/
theorem runProbe_verdict {t : Transport} {server : SocketAddr} {config : ProbeConfig}
    {txn : TransactionId} (hu : Undisturbed t server config txn) :
    match (delivered t server config txn).find? (decisive (canonical server) txn) with
    | some packet => ∃ localAddr, t.localAddr = .ok localAddr ∧
        verdict (runProbe t server config txn).2 = judge localAddr txn packet
    | none => verdict (runProbe t server config txn).2 = .failed := by
  have hfits := hu.fits
  unfold runProbe
  unfold delivered at hfits ⊢
  rcases prepare_cases t server config txn with ⟨p, hp, hlocal, hserver, htxn, -⟩ | ⟨e, he, hfailed⟩
  · rw [hp] at hfits ⊢
    have hverdict := attemptsFrom_verdict (p := p) config.attemptTimeout
      config.attempts.toNat 0 none
      rfl hu.receives hfits
    rw [judgeFirst, hserver, htxn] at hverdict
    simp only
    split
    · rename_i packet hfind
      rw [hfind] at hverdict
      exact ⟨p.localAddr, hlocal, hverdict⟩
    · rename_i hfind
      rw [hfind] at hverdict
      exact hverdict
  · rw [he]
    exact hfailed

/-- A probe is decided by the first delivered datagram that comes from its server and
answers its transaction; other datagrams make no difference, and there are at most as
many requests as configured, all the same. -/
theorem probe_decided (server : SocketAddr) (config : ProbeConfig) (txn : TransactionId) :
    (∀ t, Undisturbed t server config txn →
      match (delivered t server config txn).find? (decisive (canonical server) txn) with
      | some packet => ∃ localAddr, t.localAddr = .ok localAddr ∧
          verdict (runProbe t server config txn).2 = judge localAddr txn packet
      | none => verdict (runProbe t server config txn).2 = .failed) ∧
    (∀ t t', Undisturbed t server config txn → Undisturbed t' server config txn →
      t.localAddr = t'.localAddr →
      (delivered t server config txn).filter (decisive (canonical server) txn) =
        (delivered t' server config txn).filter (decisive (canonical server) txn) →
      verdict (runProbe t server config txn).2 = verdict (runProbe t' server config txn).2) ∧
    ∀ t, (runProbe t server config txn).1.length ≤ config.attempts.toNat ∧
      ∀ request ∈ (runProbe t server config txn).1,
        request = (encodeBindingRequest txn, canonical server) := by
  refine ⟨fun t hu => runProbe_verdict hu, ?_, ?_⟩
  · intro t t' hu hu' hlocal hfilter
    have h := runProbe_verdict hu
    have h' := runProbe_verdict hu'
    rw [← List.head?_filter] at h h'
    rw [hfilter] at h
    split at h
    · rename_i packet hhead
      rw [hhead] at h'
      obtain ⟨localAddr, hlocal₁, hverdict⟩ := h
      obtain ⟨localAddr', hlocal₂, hverdict'⟩ := h'
      rw [hlocal, hlocal₂] at hlocal₁
      rw [hverdict, hverdict', Except.ok.inj hlocal₁]
    · rename_i hhead
      rw [hhead] at h'
      rw [h, h']
  · intro t
    unfold runProbe
    rcases prepare_cases t server config txn with ⟨p, hp, -, hserver, htxn, -⟩ | ⟨e, he, -⟩
    · rw [hp, ← hserver, ← htxn]
      exact attemptsFrom_requests t p _ _ 0 none
    · rw [he]
      exact ⟨Nat.zero_le _, nofun⟩

/-! ## A probe on concrete datagrams -/

/-- The server of the examples. -/
def sampleServer : SocketAddr := .v4 ⟨0xcb007114⟩ 3478

/-- The socket of the examples. -/
def sampleSocket : SocketAddr := .v4 ⟨0xc0a80002⟩ 40000

/-- The answer of `sampleServer`. -/
def sampleAnswer (bound : SocketAddr) : Packet where
  bytes := encodeBindingSuccess (.v4 ⟨0xc6336407⟩ 9999) sampleTransaction
  source := sampleServer
  bound := .ok bound
  instant := 30
  systemTime := 1790000000030

/-- A stranger's datagram, and then the answer of the server. -/
def sampleTransport (bound : SocketAddr) : Transport where
  localAddr := .ok sampleSocket
  sameSocket := true
  firstSent := 0
  attempt _ :=
    { send := .sent, opened := 0,
      turns := [⟨10, .datagram { sampleAnswer bound with source := .v4 ⟨1⟩ 1 }⟩,
        ⟨20, .datagram (sampleAnswer bound)⟩] }

/-- The probe configuration of the examples. -/
def sampleConfig : ProbeConfig := ⟨2000, 3⟩

/-- The stranger's datagram is received, but the answer of the server decides. -/
theorem sampleTransport_find (bound : SocketAddr) :
    (delivered (sampleTransport bound) sampleServer sampleConfig sampleTransaction).find?
      (decisive (canonical sampleServer) sampleTransaction) = some (sampleAnswer bound) := by
  have hdelivered : ∃ rest, delivered (sampleTransport bound) sampleServer sampleConfig
      sampleTransaction = { sampleAnswer bound with source := .v4 ⟨1⟩ 1 } :: sampleAnswer
        bound :: rest :=
    ⟨_, rfl⟩
  obtain ⟨rest, hdelivered⟩ := hdelivered
  have hanswer : decisive (canonical sampleServer) sampleTransaction
      (sampleAnswer bound) = true := by
    rw [decisive, sampleAnswer, parse_encodeBindingSuccess]
    rfl
  rw [hdelivered, List.find?_cons_of_neg (by simp [decisive, canonical, sampleServer, SocketAddr.ip,
    SocketAddr.port, SocketAddr.new, IpAddr.toCanonical]), List.find?_cons_of_pos hanswer]

theorem sampleTransport_undisturbed (bound : SocketAddr) :
    Undisturbed (sampleTransport bound) sampleServer sampleConfig sampleTransaction := by
  constructor
  · intro k turn hturn error
    fin_cases hturn <;> simp
  · have hdelivered : delivered (sampleTransport bound) sampleServer sampleConfig
      sampleTransaction =
        (List.replicate 3 [{ sampleAnswer bound with source := .v4 ⟨1⟩ 1 },
          sampleAnswer bound]).flatten :=
      rfl
    have hfits : LengthFits (sampleAnswer bound).bytes := fun _ =>
      (wellSized_encodeBindingSuccess _ _).2.ge
    intro packet hp
    rw [hdelivered, List.mem_flatten] at hp
    obtain ⟨pair, hpair, hp⟩ := hp
    rw [(List.mem_replicate.mp hpair).2, List.mem_pair] at hp
    rcases hp with rfl | rfl <;> exact hfits

/-- The server's answer is the outcome. -/
theorem probe_decided_answer :
    verdict (runProbe (sampleTransport sampleSocket) sampleServer sampleConfig
      sampleTransaction).2 =
      .address (.v4 ⟨0xc6336407⟩ 9999) := by
  have h := (probe_decided sampleServer sampleConfig sampleTransaction).1
    (sampleTransport sampleSocket)
    (sampleTransport_undisturbed sampleSocket)
  rw [sampleTransport_find] at h
  obtain ⟨localAddr, hlocal, hverdict⟩ := h
  obtain rfl : sampleSocket = localAddr := Except.ok.inj hlocal
  rw [hverdict, judge, sampleAnswer, parse_encodeBindingSuccess]
  rfl

/-- A usable answer, but the socket has been bound anew when it arrives. -/
theorem probe_rebound : ¬ ∀ (t : Transport) (server : SocketAddr) (config : ProbeConfig)
    (txn : TransactionId), Undisturbed t server config txn → ∀ packet resp localAddr,
      (delivered t server config txn).find? (decisive (canonical server) txn) = some packet →
      parseBindingResponse packet.bytes txn = .ok resp → t.localAddr = .ok localAddr →
      usable localAddr resp.xorMappedAddress = true →
      verdict (runProbe t server config txn).2 = .address resp.xorMappedAddress := by
  intro h
  have hverdict := h (sampleTransport sampleServer) sampleServer sampleConfig sampleTransaction
    (sampleTransport_undisturbed sampleServer) _ _ sampleSocket (sampleTransport_find sampleServer)
    (parse_encodeBindingSuccess _ _) rfl (by decide)
  have hfailed : verdict (runProbe (sampleTransport sampleServer) sampleServer sampleConfig
      sampleTransaction).2 = .failed := by decide +kernel
  rw [hfailed] at hverdict
  cases hverdict

end IrohExperiment.Stun

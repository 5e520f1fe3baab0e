/-
# The tap (`vendor/iroh`: `transports/ip.rs`, `stun.rs`)

The IP socket of an endpoint has one reader, and that is iroh.  Its receive loop passes everything
on to QUIC and hands a copy of what looks like STUN to whoever listens.  The copies that are
waiting are bounded, and nothing that answers a probe fails to look like STUN.

`Tap.pollRecv` is the receive loop with its copies.  `Tap.pollRecv_noq` says that QUIC is
handed the same with or without the tap, `Tap.pollRecv_tap` that every datagram that looks
like STUN is copied in order, and `isStun_of_decisive` that every answer does.
-/
import IrohExperiment.Rust.Broadcast
import IrohExperiment.Stun.Probe

namespace IrohExperiment.Stun

open Rust

/-! ## STUN among other datagrams -/

/-- `is_stun` -/
def isStun (packet : Bytes) : Bool :=
  20 ≤ packet.length && packet.getD 0 0 &&& 0xc0 = 0 &&
    (packet.drop 4).take 4 = [0x21, 0x12, 0xa4, 0x42]

theorem toBe_magicCookie : toBe 4 magicCookie.toNat = [0x21, 0x12, 0xa4, 0x42] := by decide

/-- A message looks like STUN by the first two bits of its type and by its cookie. -/
theorem isStun_encode {h : Header} (body : Bytes)
    (htype : UInt8.ofNat (h.msgType.toNat / 256) &&& 0xc0 = 0) (hcookie : h.cookie = magicCookie) :
    isStun (h.encode ++ body) = true := by
  have hlen : 20 ≤ (h.encode ++ body).length := headerLen_le h body
  have hfield : ((h.encode ++ body).drop 4).take 4 = [0x21, 0x12, 0xa4, 0x42] := by
    rw [← toBe_magicCookie, ← hcookie]
    have hread := field_eq (toBe 2 h.msgType.toNat ++ toBe 2 h.msgLen.toNat) (toBe 4 h.cookie.toNat)
      (h.txn.bytes ++ body) (i := 4) (k := 4) (by simp) (by simp)
    simpa [Header.encode] using hread
  unfold isStun
  rw [decide_eq_true hlen, hfield, Bool.true_and, decide_eq_true rfl, Bool.and_true]
  exact decide_eq_true htype

theorem isStun_answers {h : Header} {txn : TransactionId} (body : Bytes)
    (hanswers : h.Answers bindingSuccess txn ∨ h.Answers bindingError txn) :
    isStun (h.encode ++ body) = true := by
  rcases hanswers with ⟨htype, hcookie, -⟩ | ⟨htype, hcookie, -⟩
  · exact isStun_encode body (by rw [htype]; decide) hcookie
  · exact isStun_encode body (by rw [htype]; decide) hcookie

/-- A request that is sent looks like STUN. -/
theorem isStun_encodeBindingRequest (txn : TransactionId) :
    isStun (encodeBindingRequest txn) = true := by
  have htype : UInt8.ofNat (bindingRequest.toNat / 256) &&& 0xc0 = 0 := by decide
  have h := isStun_encode (h := ⟨bindingRequest, 0, magicCookie, txn⟩) [] htype rfl
  rwa [List.append_nil] at h

/-- What answers a probe looks like STUN. -/
theorem isStun_of_decisive {server : SocketAddr} {txn : TransactionId} {packet : Packet}
    (h : decisive server txn packet = true) : isStun packet.bytes = true := by
  unfold decisive at h
  rw [Bool.and_eq_true, Bool.or_eq_true] at h
  obtain ⟨-, hparse⟩ := h
  by_cases hlen : 20 ≤ packet.bytes.length
  · obtain ⟨hd, body, hbytes⟩ := exists_header hlen
    rw [hbytes] at hparse ⊢
    by_cases hanswers : hd.Answers bindingSuccess txn ∨ hd.Answers bindingError txn
    · exact isStun_answers body hanswers
    · obtain ⟨e, he⟩ := parseBindingResponse_foreign hd body txn hanswers
      obtain ⟨e', he'⟩ := parseAuthenticatedError_foreign hd body txn fun h => hanswers (.inr h)
      rw [he, he'] at hparse
      rcases hparse with h | h <;> cases h
  · have hshort : ¬ headerLen ≤ packet.bytes.length := hlen
    rw [parseBindingResponse, parseAuthenticatedError, ensure_neg hshort,
      ensure_neg hshort] at hparse
    rcases hparse with h | h <;> cases h

/-- What looks like STUN has no fixed bit of QUIC. -/
theorem isStun_fixed_bit {packet : Bytes} (h : isStun packet = true) :
    packet.getD 0 0 &&& 0x40 = 0 := by
  unfold isStun at h
  rw [Bool.and_eq_true, Bool.and_eq_true] at h
  have hbits : packet.getD 0 0 &&& 0xc0 = 0 := of_decide_eq_true h.1.2
  have hmask : (0x40 : UInt8) = 0xc0 &&& 0x40 := by decide
  rw [hmask, ← UInt8.and_assoc, hbits, UInt8.zero_and]

/-! ## What the receive loop is given -/

/-- `slice::chunks` -/
def chunks (size : ℕ) (bytes : Bytes) : List Bytes :=
  (List.range ((bytes.length + size - 1) / size)).map fun i => (bytes.drop (i * size)).take size

/-- `Ipv4Addr::to_ipv6_mapped` -/
def toIpv6Mapped (ip : Ipv4Addr) : Ipv6Addr :=
  ⟨List.replicate 10 0 ++ [0xff, 0xff] ++ toBe 4 ip.bits.toNat, by simp⟩

/-- A buffer of `poll_recv` and its `RecvMeta`: one datagram, or several of one size. -/
structure Slot where
  buf : Bytes
  addr : SocketAddr
  len : ℕ
  stride : ℕ
  len_le : len ≤ buf.length

/-- A `StunDatagram`, or any other -/
structure Datagram where
  bytes : Bytes
  source : SocketAddr
  deriving DecidableEq, Repr

namespace Slot

/-- `bufs[i][..meta.len].chunks(meta.stride.max(1))` -/
def segments (slot : Slot) : List Bytes := chunks (max slot.stride 1) (slot.buf.take slot.len)

/-- The datagrams of a buffer, with their canonical source. -/
def datagrams (slot : Slot) : List Datagram :=
  slot.segments.map fun bytes => ⟨bytes, canonical slot.addr⟩

/-- The address that noq is told: it uses IPv4-mapped addresses on an INET6 socket. -/
def noqAddr (slot : Slot) : SocketAddr :=
  match slot.addr with
  | .v4 ip port => .new (.v6 (toIpv6Mapped ip)) port
  | addr => addr

/-- The buffer and its `RecvMeta` as noq gets them. -/
def toNoq (slot : Slot) : Slot := { slot with addr := slot.noqAddr }

end Slot

theorem toCanonical_toIpv6Mapped (ip : Ipv4Addr) :
    (IpAddr.v6 (toIpv6Mapped ip)).toCanonical = .v4 ip := by
  obtain ⟨a, b, c, d, hbytes, hbits⟩ := exists_toBe_u32 ip.bits
  have hmapped : (toIpv6Mapped ip).toIpv4Mapped = some ip := by
    unfold toIpv6Mapped Ipv6Addr.toIpv4Mapped
    simp only [hbytes]
    exact congrArg (fun bits => some (Ipv4Addr.mk bits)) hbits
  rw [IpAddr.toCanonical, hmapped]

/-- All of them are told the same address. -/
theorem Slot.canonical_noqAddr (slot : Slot) : canonical slot.noqAddr = canonical slot.addr := by
  unfold Slot.noqAddr
  cases slot.addr with
  | v4 ip port =>
    show canonical (.new (.v6 (toIpv6Mapped ip)) port) = canonical (.v4 ip port)
    rw [canonical, SocketAddr.new_ip, SocketAddr.new_port, toCanonical_toIpv6Mapped]
    rfl
  | v6 ip port flowinfo scopeId => rfl

/-- Of some datagrams, those that look like STUN. -/
def stunOf (packets : List Datagram) : List Datagram :=
  packets.filter fun packet => isStun packet.bytes

theorem stunOf_append (packets more : List Datagram) :
    stunOf (packets ++ more) = stunOf packets ++ stunOf more := List.filter_append ..

/-! ## The receive loop -/

/-- The capacity of `broadcast::channel` -/
def tapCapacity : ℕ := 64

/-- An `IpTransport` with its tap: the copies that are held, how many listen, whether the endpoint
is closing, whether its socket is gone, and what the socket is bound to. -/
structure Tap where
  packets : Broadcast Datagram tapCapacity
  receivers : ℕ
  closed : Bool
  dropped : Bool
  bound : Except IoError SocketAddr

namespace Tap

/-- A datagram is copied if it looks like STUN and somebody listens. -/
def inspect (tap : Tap) (packet : Datagram) : Tap :=
  if isStun packet.bytes = true ∧ 0 < tap.receivers then
    { tap with packets := tap.packets.send packet }
  else tap

/-- `poll_recv`: the tap, and what noq is given, each with its `RecvInfo` -/
def pollRecv (tap : Tap) : List Slot → Tap × List (Slot × SocketAddr)
  | [] => (tap, [])
  | slot :: slots =>
    let rest := (slot.datagrams.foldl inspect tap).pollRecv slots
    (rest.1, (slot.toNoq, canonical slot.noqAddr) :: rest.2)

/-- What is tapped makes no difference to noq. -/
theorem pollRecv_noq (tap : Tap) (slots : List Slot) :
    (tap.pollRecv slots).2 = slots.map fun slot => (slot.toNoq, canonical slot.noqAddr) := by
  induction slots generalizing tap with
  | nil => rfl
  | cons slot slots ih =>
    rw [pollRecv, List.map_cons]
    exact congrArg (_ :: ·) (ih _)

/-- Copies are sent one after the other. -/
def copy (tap : Tap) (packets : List Datagram) : Tap :=
  { tap with packets := tap.packets.sendAll packets }

theorem copy_append (tap : Tap) (packets more : List Datagram) :
    tap.copy (packets ++ more) = (tap.copy packets).copy more := by
  unfold copy Broadcast.sendAll
  rw [List.foldl_append]

theorem foldl_inspect (tap : Tap) (packets : List Datagram) (hlistens : 0 < tap.receivers) :
    packets.foldl inspect tap = tap.copy (stunOf packets) := by
  induction packets generalizing tap with
  | nil => rfl
  | cons packet packets ih =>
    rw [List.foldl_cons]
    by_cases hstun : isStun packet.bytes = true
    · have hcopied : tap.inspect packet = tap.copy [packet] := if_pos ⟨hstun, hlistens⟩
      have hstuns : stunOf (packet :: packets) = [packet] ++ stunOf packets :=
        List.filter_cons_of_pos hstun
      rw [hcopied, ih (tap.copy [packet]) hlistens, hstuns, copy_append]
    · have hpassed : tap.inspect packet = tap := if_neg fun h => hstun h.1
      have hstuns : stunOf (packet :: packets) = stunOf packets := List.filter_cons_of_neg hstun
      rw [hpassed, ih tap hlistens, hstuns]

/-- While somebody listens, everything that looks like STUN is copied. -/
theorem pollRecv_tap (tap : Tap) (slots : List Slot) (hlistens : 0 < tap.receivers) :
    (tap.pollRecv slots).1 = tap.copy (stunOf (slots.flatMap Slot.datagrams)) := by
  induction slots generalizing tap with
  | nil => rfl
  | cons slot slots ih =>
    rw [pollRecv, foldl_inspect tap slot.datagrams hlistens]
    simp only
    rw [ih (tap.copy (stunOf slot.datagrams)) hlistens, List.flatMap_cons, stunOf_append,
      copy_append]

end Tap

/-! ## The socket as a probe has it -/

/-- What happens at the socket while a probe listens. -/
inductive SocketEvent where
  /-- Iroh polls it. -/
  | receives (slots : List Slot)
  /-- Somebody else listens. -/
  | subscribes
  /-- Somebody else listens no longer. -/
  | unsubscribes
  /-- The endpoint begins to close. -/
  | closes
  | drops
  | rebinds (bound : Except IoError SocketAddr)

/-- The datagrams that reach the socket. -/
def SocketEvent.datagrams : SocketEvent → List Datagram
  | .receives slots => slots.flatMap Slot.datagrams
  | _ => []

/-- How `try_send` ends. -/
inductive TrySend where
  | sent
  | wouldBlock
  | failed (error : IoError)

/-- A turn of the loop of `send_to`, and what has happened before it. -/
structure SendPoll where
  events : List SocketEvent
  result : TrySend

/-- `iroh endpoint closed` -/
def endpointClosed : IoError := "iroh endpoint closed".toList

/-- `iroh IP socket dropped` -/
def socketDropped : IoError := "iroh IP socket dropped".toList

/-- `not a STUN packet` -/
def notStunPacket : IoError := "not a STUN packet".toList

/-- `oversized STUN datagram` -/
def oversized : IoError := "oversized STUN datagram".toList

namespace Tap

def step (tap : Tap) : SocketEvent → Tap
  | .receives slots => (tap.pollRecv slots).1
  | .subscribes => { tap with receivers := tap.receivers + 1 }
  | .unsubscribes => if 1 < tap.receivers then { tap with receivers := tap.receivers - 1 } else tap
  | .closes => { tap with closed := true }
  | .drops => { tap with dropped := true }
  | .rebinds bound => { tap with bound }

/-- Everything that reaches the socket and looks like STUN is copied, and nothing else is. -/
theorem step_packets {tap : Tap} (hlistens : 0 < tap.receivers) (event : SocketEvent) :
    (tap.step event).packets = tap.packets.sendAll (stunOf event.datagrams) := by
  cases event with
  | receives slots =>
    rw [step, pollRecv_tap tap slots hlistens]
    rfl
  | unsubscribes =>
    rw [step]
    split <;> rfl
  | subscribes => rfl
  | closes => rfl
  | drops => rfl
  | rebinds bound => rfl

theorem step_receivers {tap : Tap} (hlistens : 0 < tap.receivers) (event : SocketEvent) :
    0 < (tap.step event).receivers := by
  cases event with
  | receives slots =>
    rw [step, pollRecv_tap tap slots hlistens]
    exact hlistens
  | unsubscribes =>
    rw [step]
    split
    case isTrue hothers => exact Nat.sub_pos_of_lt hothers
    case isFalse hothers => exact hlistens
  | subscribes => exact Nat.succ_pos _
  | closes => exact hlistens
  | drops => exact hlistens
  | rebinds bound => exact hlistens

/-- `StunSocket::socket` -/
def socket (tap : Tap) : Except IoError Unit :=
  if tap.closed then .error endpointClosed
  else if tap.dropped then .error socketDropped
  else .ok ()

/-- `StunSocket::local_addr` -/
def localAddr (tap : Tap) : Except IoError SocketAddr := do
  tap.socket
  tap.bound

end Tap

end IrohExperiment.Stun

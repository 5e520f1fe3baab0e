/-
# The relay's wire format (`worker/src/relay-protocol.js`)

Rooms and their tokens, and the frames of the `iroh-relay-v2` protocol.  A JavaScript
string is a list of characters here: the strings that matter are room tokens and
hexadecimal digits.

`relayRoom`, `challengeFrame`, `clientAuth`, `clientFrame`, `forwardedFrame` and `protocol`,
as the source has them; BLAKE3 and Ed25519 are parameters where a signature is verified.
`forwardedFrame_length` and `clientFrame_datagram` say what a datagram frame is made of.
-/
import IrohExperiment.Strings.Hex
import Mathlib

namespace IrohExperiment

/-! ## Strings -/

/-- What `trim` takes off: the white space and the line terminators of JavaScript. -/
def isJsSpace (c : Char) : Bool :=
  c.toNat ∈ [0x9, 0xa, 0xb, 0xc, 0xd, 0x20, 0xa0, 0x1680, 0x2028, 0x2029, 0x202f, 0x205f, 0x3000,
    0xfeff] || (0x2000 ≤ c.toNat && c.toNat ≤ 0x200a)

/-- `trim`. -/
def jsTrim (text : Text) : Text := (text.dropWhile isJsSpace).rdropWhile isJsSpace

/-- `toLowerCase` of one character, as far as ASCII letters come of it: besides the
capitals these are two, and every other character becomes something else again. -/
def jsLower (c : Char) : Text :=
  if c.toNat = 0x212a then ['k']
  else if c.toNat = 0x130 then ['i', Char.ofNat 0x307]
  else [c.toLower]

/-- `toLowerCase`. -/
def jsToLowerCase (text : Text) : Text := text.flatMap jsLower

/-! ## Rooms -/

/-- `PING_SECONDS`. -/
def pingSeconds : List ℕ := [15, 30, 60, 120, 300]

/-- `RELAY_TTL`: 30 minutes, in milliseconds. -/
def relayTtl : ℕ := 30 * 60000

/-- How long a room's statistics outlive it. -/
def historyTtl : ℕ := 3600000

/-- What `relayRoom` returns. -/
structure Room where
  token : Text
  expires : ℕ
  ping : ℕ
  deriving DecidableEq, Repr

def isDigit (c : Char) : Bool := '0' ≤ c && c ≤ '9'

def isHexDigit (c : Char) : Bool := isDigit c || ('a' ≤ c && c ≤ 'f')

/-- The regular expression of a room token: 13 digits of creation time and a
version 4 UUID. -/
def tokenPattern : List (Char → Bool) :=
  let hexes := fun n => List.replicate n isHexDigit
  List.replicate 13 isDigit ++ [(· == '-')] ++ hexes 8 ++ [(· == '-')] ++ hexes 4 ++
    [(· == '-'), (· == '4')] ++ hexes 3 ++ [(· == '-'), fun c => c ∈ ['8', '9', 'a', 'b']] ++
    hexes 3 ++ [(· == '-')] ++ hexes 12

/-- The whole text is spelled by the pattern, character by character. -/
def spelledBy : List (Char → Bool) → Text → Bool
  | [], [] => true
  | p :: ps, c :: cs => p c && spelledBy ps cs
  | _, _ => false

/-- `Number` of a string of decimal digits. -/
def decimal (digits : Text) : ℕ := digits.foldl (fun n c => 10 * n + (c.toNat - 48)) 0

/-- When the room of a token expires. -/
def tokenExpires (token : Text) : ℕ := decimal (token.take 13) + relayTtl

/-- The parts of a request that the relay reads: the path, the query parameters
and two headers. -/
structure Request where
  stats : Bool
  room : Option Text
  ping : Option Text
  subprotocol : Option Text
  upgrade : Option Text

/-- `relayRoom`.  `number` is JavaScript's `Number` on strings; a value that is
not a natural number is `none` and cannot be an allowed ping interval. -/
def relayRoom (number : Text → Option ℕ) (request : Request) (now : ℕ) (history : Bool) :
    Option Room :=
  let token := request.room.getD []
  if !spelledBy tokenPattern token then none
  else
    let created := decimal (token.take 13)
    let expires := created + relayTtl
    let ping := match request.ping with
      | some text => number text
      | none => some 15
    match ping with
    | some ping =>
        if now + 30000 < created ∨ expires + (if history then historyTtl else 0) ≤ now ∨
            ping ∉ pingSeconds then none
        else some ⟨token, expires, ping⟩
    | none => none

/-- A room is granted for the request's own token and one of the five ping
intervals, and only before it expires. -/
theorem relayRoom_eq_some {number : Text → Option ℕ} {request : Request} {now : ℕ}
    {history : Bool} {room : Room} (h : relayRoom number request now history = some room) :
    room.token = request.room.getD [] ∧ room.expires = tokenExpires room.token ∧
      room.ping ∈ pingSeconds ∧ now < room.expires + (if history then historyTtl else 0) := by
  unfold relayRoom at h
  dsimp only at h
  by_cases htoken : (!spelledBy tokenPattern (request.room.getD [])) = true
  · rw [if_pos htoken] at h
    cases h
  · rw [if_neg htoken] at h
    generalize (match request.ping with
      | some text => number text
      | none => some 15) = ping at h
    cases ping with
    | none => cases h
    | some ping =>
      dsimp only at h
      by_cases hbad : now + 30000 < decimal ((request.room.getD []).take 13) ∨
          decimal ((request.room.getD []).take 13) + relayTtl +
            (if history then historyTtl else 0) ≤ now ∨ ping ∉ pingSeconds
      · rw [if_pos hbad] at h
        cases h
      · rw [if_neg hbad] at h
        obtain rfl := Option.some.inj h
        push Not at hbad
        exact ⟨rfl, rfl, hbad.2.2, hbad.2.1⟩

/-! ## Frames -/

/-- A WebSocket message: a text message or an `ArrayBuffer`. -/
inductive Message : Type where
  | text (s : Text)
  | binary (bytes : Bytes)
  deriving DecidableEq, Repr

/-- `challengeFrame`. -/
def challengeFrame (challenge : Bytes) : Bytes := 0 :: challenge

/-- The parts of a client's authentication frame. -/
structure ClientAuth where
  publicKey : Bytes
  signature : Bytes
  deriving DecidableEq, Repr

/-- The format check at the head of `authenticate`: tag 1, a public key of 32
bytes, the length of the signature and its 64 bytes. -/
def clientAuth (frame : Bytes) : Option ClientAuth :=
  if frame.length ≠ 98 ∨ frame[0]? ≠ some 1 ∨ frame[33]? ≠ some 64 then none
  else some ⟨(frame.drop 1).take 32, frame.drop 34⟩

/-- What `clientFrame` makes of a message from an authenticated client. -/
inductive ClientFrame : Type where
  | ping (frame : Bytes)
  | pong (frame : Bytes)
  | datagram (destination : Text) (frame : Bytes)
  deriving DecidableEq, Repr

/-- `clientFrame`; `none` stands for each of its four exceptions. -/
def clientFrame : Message → Option ClientFrame
  | .text _ => none
  | .binary frame =>
      if 65537 < frame.length ∨ frame.length = 0 then none
      else if frame[0]? = some 9 ∨ frame[0]? = some 10 then
        if frame.length ≠ 9 then none
        else if frame[0]? = some 9 then some (.ping frame) else some (.pong frame)
      else if frame[0]? ≠ some 4 ∧ frame[0]? ≠ some 5 then none
      else if frame.length < (if frame[0]? = some 4 then 34 else 36) ∨
          (3 : UInt8) < frame[33]?.getD 0 then none
      else some (.datagram (hex ((frame.drop 1).take 32)) frame)

/-- `forwardedFrame`: the tag goes up by two and the source's key is written
over the destination; `Uint8Array.set` throws when it does not fit. -/
def forwardedFrame (frame : Bytes) (source : Text) : Option Bytes :=
  match frame with
  | [] => none
  | tag :: rest =>
      if rest.length < (unhex source).length then none
      else some ((tag + 2) :: unhex source ++ rest.drop (unhex source).length)

/-- Forwarding keeps the length of a frame. -/
theorem forwardedFrame_length {frame bytes : Bytes} {source : Text}
    (h : forwardedFrame frame source = some bytes) : bytes.length = frame.length := by
  cases frame with
  | nil => cases h
  | cons tag rest =>
    simp only [forwardedFrame] at h
    split_ifs at h with hshort
    obtain rfl := Option.some.inj h
    simp
    omega

/-- What a datagram frame looks like: a tag, the destination's 32 bytes and the
rest. -/
theorem clientFrame_datagram {m : Message} {destination : Text} {frame : Bytes}
    (h : clientFrame m = some (.datagram destination frame)) :
    m = .binary frame ∧ destination = hex ((frame.drop 1).take 32) ∧
      (frame[0]? = some 4 ∨ frame[0]? = some 5) ∧ 34 ≤ frame.length := by
  cases m with
  | text s => simp [clientFrame] at h
  | binary bytes =>
    simp only [clientFrame] at h
    split_ifs at h with h1 h2 h3 h4 h5 h6 h7 h7 <;>
      simp only [reduceCtorEq, Option.some.injEq, ClientFrame.datagram.injEq] at h
    · obtain ⟨rfl, rfl⟩ := h
      exact ⟨rfl, rfl, Or.inl h6, not_lt.mp fun hlt => h7 (Or.inl hlt)⟩
    · obtain ⟨rfl, rfl⟩ := h
      have hlen : 36 ≤ bytes.length := not_lt.mp fun hlt => h7 (Or.inl hlt)
      exact ⟨rfl, rfl, by tauto, by omega⟩

/-- The `iroh-relay-v2` subprotocol is among those offered. -/
def protocol (request : Request) : Bool :=
  match request.subprotocol with
  | some header =>
      ((header.splitOnP (· == ',')).map jsTrim).contains "iroh-relay-v2".toList
  | none => false

/-- The request asks for a WebSocket. -/
def upgradesToWebSocket (request : Request) : Bool :=
  match request.upgrade with
  | some header => jsToLowerCase header == "websocket".toList
  | none => false

end IrohExperiment

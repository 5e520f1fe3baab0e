/-
# The STUN codec (`cloudflare-stun/src/lib.rs`)

The part of STUN (RFC 8489) that `cloudflare-stun` implements, function by function:
Binding Requests, and Binding Responses with XOR-MAPPED-ADDRESS or ERROR-CODE.

Every index and every slice of the source is one that may panic here (`Rust.Exec`).  A
transaction id is a list of twelve bytes with a proof of its length.  The theorems about
these functions are in the modules that follow.
-/
import IrohExperiment.Rust.Net
import IrohExperiment.Rust.Text

namespace IrohExperiment.Stun

open Rust

/-! ## Constants and types -/

/-- STUN magic cookie. -/
def magicCookie : UInt32 := 0x2112a442

/-- Binding Request message type. -/
def bindingRequest : UInt16 := 0x0001

/-- Binding Response (success) message type. -/
def bindingSuccess : UInt16 := 0x0101

/-- Binding Error Response message type. -/
def bindingError : UInt16 := 0x0111

/-- XOR-MAPPED-ADDRESS attribute type. -/
def attrXorMappedAddress : UInt16 := 0x0020

/-- ERROR-CODE attribute type. -/
def attrErrorCode : UInt16 := 0x0009

/-- Fixed header size: type(2) + len(2) + cookie(4) + txn(12). -/
abbrev headerLen : ℕ := 20

/-- Attribute TLV header size: type(2) + len(2). -/
abbrev attrHeaderLen : ℕ := 4

/-- Random 96-bit transaction id identifying one request/response pair. -/
structure TransactionId where
  bytes : Bytes
  length_eq : bytes.length = 12
  deriving DecidableEq, Repr

/-- One parsed failure reason carried by an ERROR-CODE attribute. -/
structure StunError where
  code : UInt16
  reason : Text
  deriving DecidableEq, Repr

/-- A successfully parsed Binding Response. -/
structure BindingResponse where
  xorMappedAddress : SocketAddr
  deriving DecidableEq, Repr

/-- Why a datagram is not what a parser looks for. -/
inductive ParseError where
  /-- `datagram too short` -/
  | tooShort
  /-- `datagram shorter than STUN header ({length})` -/
  | shorterThanHeader (length : ℕ)
  /-- `not a STUN packet` -/
  | notStun
  /-- `not a STUN packet (top bits set)` -/
  | topBitsSet
  /-- `unexpected message type {msg_type:#06x}` -/
  | unexpectedType (msgType : UInt16)
  /-- `magic cookie mismatch` -/
  | cookieMismatch
  /-- `magic cookie mismatch ({cookie:#010x})` -/
  | wrongCookie (cookie : UInt32)
  /-- `transaction id mismatch on error response` -/
  | errorMismatch
  /-- `no ERROR-CODE attribute in error response` -/
  | noErrorCodeInResponse
  /-- `server returned error {err:?}` -/
  | serverError (err : StunError)
  /-- `transaction id mismatch (spoofed or stale response)` -/
  | spoofedOrStale
  /-- `no valid XOR-MAPPED-ADDRESS in success response` -/
  | noAddress
  /-- `not an error response` -/
  | notErrorResponse
  /-- `transaction id mismatch` -/
  | transactionMismatch
  /-- `no ERROR-CODE attribute` -/
  | noErrorCode
  deriving DecidableEq, Repr

variable {ε α : Type}

/-! ## Requests -/

/-- The first 20 bytes of a message. -/
def header (msgType : UInt16) (msgLen : UInt16) (txn : TransactionId) : Bytes :=
  toBe 2 msgType.toNat ++ toBe 2 msgLen.toNat ++ toBe 4 magicCookie.toNat ++ txn.bytes

/-- `encode_binding_request` -/
def encodeBindingRequest (txn : TransactionId) : Bytes := header bindingRequest 0 txn

/-- `is_stun_packet`: the buffer plausibly starts a STUN message. -/
def isStunPacket (buf : Bytes) : Exec ε Bool :=
  if headerLen ≤ buf.length then do
    return (← index buf 0) &&& 0xc0 = 0
  else return false

/-- `TransactionId::from_bytes(buf[8..20].try_into().unwrap())` -/
def transactionId (buf : Bytes) : Exec ε TransactionId := do
  let part ← slice buf 8 20
  return ⟨part.1, part.2⟩

/-- `parse_binding_request` -/
def parseBindingRequest (buf : Bytes) : Exec ParseError TransactionId := do
  ensure (headerLen ≤ buf.length) .tooShort
  ensure ((← isStunPacket buf) = true) .notStun
  let msgType ← u16At buf 0
  ensure (msgType = bindingRequest) (.unexpectedType msgType)
  let cookie ← u32At buf 4
  ensure (cookie = magicCookie) .cookieMismatch
  transactionId buf

/-! ## Attributes -/

/-- `usize::next_multiple_of(4)`, and `n.div_ceil(4) * 4`. -/
def nextMultipleOf4 (n : ℕ) : ℕ := (n + 3) / 4 * 4

/-- The loop of `parse_xor_mapped_address` and `parse_error_code`: visits one attribute
after the other until a visit returns. -/
def walkAttributes (visit : UInt16 → Bytes → Exec ε (Option (Option α))) (attrs : Bytes) :
    Exec ε (Option α) :=
  if _h : attrs.length < attrHeaderLen then return none
  else do
    let attrType ← u16At attrs 0
    let attrLen ← u16At attrs 2
    let valueEnd := attrHeaderLen + attrLen.toNat
    if attrs.length < valueEnd then return none
    else
      let value ← slice attrs attrHeaderLen valueEnd
      match ← visit attrType value.1 with
      | some found => return found
      | none =>
        let rest ← slice attrs (min (nextMultipleOf4 valueEnd) attrs.length) attrs.length
        walkAttributes visit rest.1
termination_by attrs.length
decreasing_by
  have hrest := rest.2
  have hend : attrHeaderLen ≤ valueEnd := Nat.le_add_right _ _
  simp only [nextMultipleOf4, attrHeaderLen] at *
  omega

/-- The bytes that an IPv6 address is XORed with. -/
def xorMask (txn : TransactionId) : Bytes := toBe 4 magicCookie.toNat ++ txn.bytes

/-- XORs 16 octets with the mask. -/
def xorOctets (octets : Bytes) (txn : TransactionId) : Bytes :=
  octets.zipWith (· ^^^ ·) (xorMask txn)

theorem xorOctets_length {octets : Bytes} (h : octets.length = 16) (txn : TransactionId) :
    (xorOctets octets txn).length = 16 := by
  simp [xorOctets, xorMask, h, txn.length_eq]

/-- `(MAGIC_COOKIE >> 16) as u16` -/
def cookiePort : UInt16 := (magicCookie >>> 16).toUInt16

/-- `decode_xor_mapped` -/
def decodeXorMapped (value : Bytes) (txn : TransactionId) : Exec ε (Option SocketAddr) :=
  if value.length < 4 then return none
  else do
    let family ← index value 1
    let xport := (← u16At value 2) ^^^ cookiePort
    if family = 0x01 then
      match (value.drop 4).take 4 with
      | [a, b, c, d] => return some (.new (.v4 ⟨u32FromBe a b c d ^^^ magicCookie⟩) xport)
      | _ => return none
    else if family = 0x02 then
      if h : ((value.drop 4).take 16).length = 16 then
        return some (.new (.v6 ⟨xorOctets ((value.drop 4).take 16) txn, xorOctets_length h txn⟩)
          xport)
      else return none
    else return none

/-- The body of the loop in `parse_xor_mapped_address`. -/
def visitXorMapped (txn : TransactionId) (attrType : UInt16) (value : Bytes) :
    Exec ε (Option (Option SocketAddr)) := do
  if attrType = attrXorMappedAddress then return some (← decodeXorMapped value txn) else return none

/-- `parse_xor_mapped_address` -/
def parseXorMappedAddress (attrs : Bytes) (txn : TransactionId) : Exec ε (Option SocketAddr) :=
  walkAttributes (visitXorMapped txn) attrs

/-- The body of the loop in `parse_error_code`. -/
def visitErrorCode (attrType : UInt16) (value : Bytes) : Exec ε (Option (Option StunError)) := do
  if attrType = attrErrorCode ∧ 4 ≤ value.length then
    let errorClass := ((← index value 2) &&& 0x07).toUInt16
    let number := (← index value 3).toUInt16
    let reason ← slice value 4 value.length
    return some (some ⟨errorClass * 100 + number, trim (fromUtf8Lossy reason.1)⟩)
  else return none

/-- `parse_error_code` -/
def parseErrorCode (attrs : Bytes) : Exec ε (Option StunError) :=
  walkAttributes visitErrorCode attrs

/-! ## Responses -/

/-- `parse_binding_response` -/
def parseBindingResponse (buf : Bytes) (expectedTxn : TransactionId) :
    Exec ParseError BindingResponse := do
  ensure (headerLen ≤ buf.length) (.shorterThanHeader buf.length)
  ensure ((← isStunPacket buf) = true) .topBitsSet
  let msgType ← u16At buf 0
  let msgLen ← u16At buf 2
  ensure (msgType = bindingSuccess ∨ msgType = bindingError) (.unexpectedType msgType)
  let cookie ← u32At buf 4
  ensure (cookie = magicCookie) (.wrongCookie cookie)
  let txn ← transactionId buf
  if msgType = bindingError then
    ensure (txn = expectedTxn) .errorMismatch
    let attrs ← slice buf headerLen (headerLen + msgLen.toNat)
    let err ← okOr (← parseErrorCode attrs.1) .noErrorCodeInResponse
    .err (.serverError err)
  else
    ensure (txn = expectedTxn) .spoofedOrStale
    let attrs ← slice buf headerLen (headerLen + msgLen.toNat)
    let addr ← okOr (← parseXorMappedAddress attrs.1 txn) .noAddress
    return ⟨addr⟩

/-- `parse_authenticated_error` -/
def parseAuthenticatedError (buf : Bytes) (expectedTxn : TransactionId) :
    Exec ParseError StunError := do
  ensure (headerLen ≤ buf.length) .tooShort
  let msgType ← u16At buf 0
  ensure (msgType = bindingError) .notErrorResponse
  let cookie ← u32At buf 4
  ensure (cookie = magicCookie) .cookieMismatch
  let txn ← transactionId buf
  ensure (txn = expectedTxn) .transactionMismatch
  let msgLen ← u16At buf 2
  let attrs ← slice buf headerLen (headerLen + msgLen.toNat)
  okOr (← parseErrorCode attrs.1) .noErrorCode

/-- The value of the XOR-MAPPED-ADDRESS attribute that `encode_binding_success` sends. -/
def xorMappedValue (observed : SocketAddr) (txn : TransactionId) : Bytes :=
  match observed.ip with
  | .v4 ip => [0x00, 0x01] ++ toBe 2 (observed.port ^^^ cookiePort).toNat ++
      toBe 4 (ip.bits ^^^ magicCookie).toNat
  | .v6 ip => [0x00, 0x02] ++ toBe 2 (observed.port ^^^ cookiePort).toNat ++
      xorOctets ip.octets txn

/-- `encode_binding_success` -/
def encodeBindingSuccess (observed : SocketAddr) (txn : TransactionId) : Bytes :=
  let value := xorMappedValue observed txn
  let msgLen := UInt16.ofNat (attrHeaderLen + value.length)
  header bindingSuccess msgLen txn ++ toBe 2 attrXorMappedAddress.toNat ++
    toBe 2 (UInt16.ofNat value.length).toNat ++ value

/-- The value of the ERROR-CODE attribute that `encode_binding_error` sends. -/
def errorCodeValue (code : UInt16) (reason : Text) : Bytes :=
  let errorClass := (code / 100).toUInt8
  let number := (code % 100).toUInt8
  [0x00, 0x00, errorClass &&& 0x07, number] ++ utf8 reason

/-- `encode_binding_error` -/
def encodeBindingError (code : UInt16) (reason : Text) (txn : TransactionId) : Bytes :=
  let value := errorCodeValue code reason
  let unpadded := value.length
  let value := value ++ List.replicate (nextMultipleOf4 unpadded - unpadded) 0
  let msgLen := UInt16.ofNat (attrHeaderLen + value.length)
  header bindingError msgLen txn ++ toBe 2 attrErrorCode.toNat ++
    toBe 2 (UInt16.ofNat unpadded).toNat ++ value

end IrohExperiment.Stun

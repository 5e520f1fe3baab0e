/-
# Round trips (`cloudflare-stun/src/lib.rs`)

What the encoders send is what the parsers read, for requests, success responses and
error responses; and every message has the length that its header announces.

The main result is `codec_round_trip`, for every transaction, every address, every code
below 800 and every reason that fits.
-/
import IrohExperiment.Stun.Addresses

namespace IrohExperiment.Stun

open Rust

variable {ε α : Type}

/-! ## Requests and success responses -/

/-- The length of the message is a multiple of four, and is the announced length. -/
def WellSized (buf : Bytes) : Prop := buf.length % 4 = 0 ∧ buf.length = 20 + messageLength buf

/-- The length field is read as it was written. -/
theorem messageLength_header (msgType msgLen : UInt16) (txn : TransactionId) (body : Bytes) :
    messageLength (header msgType msgLen txn ++ body) = msgLen.toNat := by
  rw [header_eq, messageLength_encode]

/-- A message is well sized if its length field is the length of its body. -/
theorem wellSized_of_body {msgType msgLen : UInt16} {txn : TransactionId} {body : Bytes}
    (hlen : msgLen.toNat = body.length) (hmul : body.length % 4 = 0) :
    WellSized (header msgType msgLen txn ++ body) := by
  unfold WellSized
  rw [messageLength_header, List.length_append, header_length, hlen]
  omega

/-- A request is parsed to its transaction. -/
theorem parse_encodeBindingRequest (txn : TransactionId) :
    parseBindingRequest (encodeBindingRequest txn) = .ok txn := by
  rw [encodeBindingRequest, header_eq, ← List.append_nil (Header.encode _), parseBindingRequest_eq]
  have htop : UInt8.ofNat (bindingRequest.toNat / 256) &&& 0xc0 = 0 := by decide
  rw [ensure_pos htop, ensure_pos rfl, ensure_pos rfl]
  rfl

/-- An address is read as it was written, canonically. -/
theorem decodes_xorMappedValue (observed : SocketAddr) (txn : TransactionId) :
    Decodes txn (xorMappedValue observed txn) (.new observed.ip observed.port) := by
  unfold xorMappedValue
  cases observed with
  | v4 ip port =>
    have h : Decodes txn _ _ := .v4 0x00 port ip []
    rw [List.append_nil] at h
    exact h
  | v6 ip port flowinfo scopeId =>
    have h : Decodes txn _ _ := .v6 0x00 port ip []
    rw [List.append_nil] at h
    exact h

/-- Eight bytes for IPv4, twenty for IPv6. -/
theorem xorMappedValue_length (observed : SocketAddr) (txn : TransactionId) :
    (xorMappedValue observed txn).length = 8 ∨ (xorMappedValue observed txn).length = 20 := by
  unfold xorMappedValue
  split
  · exact .inl (by simp)
  · exact .inr (by simp [xorOctets_length (Ipv6Addr.length_eq _)])

/-- The attribute of a success response. -/
def xorMappedAttribute (observed : SocketAddr) (txn : TransactionId) : Attribute :=
  ⟨attrXorMappedAddress, xorMappedValue observed txn, []⟩

theorem ofNat_toNat_of_lt {n : ℕ} (h : n < 2 ^ 16) : (UInt16.ofNat n).toNat = n := by
  rw [UInt16.toNat_ofNat']
  exact Nat.mod_eq_of_lt h

/-- A success is a header and one attribute. -/
theorem encodeBindingSuccess_eq (observed : SocketAddr) (txn : TransactionId) :
    encodeBindingSuccess observed txn = successMessage txn [xorMappedAttribute observed txn] := by
  have hlen := xorMappedValue_length observed txn
  have hvalue : (UInt16.ofNat (xorMappedValue observed txn).length).toNat =
      (xorMappedValue observed txn).length := ofNat_toNat_of_lt (by omega)
  have htotal : (encodeAttributes [xorMappedAttribute observed txn]).length =
      attrHeaderLen + (xorMappedValue observed txn).length := by
    simp [xorMappedAttribute, Attribute.encode_length]
  rw [successMessage, htotal, encodeBindingSuccess, hvalue]
  simp [xorMappedAttribute, Attribute.encode]

/-- A success is parsed to the address that it carries. -/
theorem parse_encodeBindingSuccess (observed : SocketAddr) (txn : TransactionId) :
    parseBindingResponse (encodeBindingSuccess observed txn) txn =
      .ok ⟨.new observed.ip observed.port⟩ := by
  have hlen := xorMappedValue_length observed txn
  rw [encodeBindingSuccess_eq, ← List.append_nil (successMessage _ _), parse_successMessage]
  · rw [firstAddress_cons_self rfl]
    exact decodes_xorMappedValue observed txn
  · exact Nat.zero_le _
  · simp only [encodeAttributes_cons, encodeAttributes_nil, List.length_append, List.length_nil,
      Attribute.encode_length, xorMappedAttribute]
    omega

/-- The length field of a success is right. -/
theorem wellSized_encodeBindingSuccess (observed : SocketAddr) (txn : TransactionId) :
    WellSized (encodeBindingSuccess observed txn) := by
  have hlen := xorMappedValue_length observed txn
  have htotal : (encodeAttributes [xorMappedAttribute observed txn]).length =
      4 + (xorMappedValue observed txn).length := by
    simp [xorMappedAttribute, Attribute.encode_length]
  rw [encodeBindingSuccess_eq]
  apply wellSized_of_body
  · rw [htotal, ofNat_toNat_of_lt (by omega)]
  · omega

/-! ## Error responses -/

/-- The attribute of an error response. -/
def errorCodeAttribute (code : UInt16) (reason : Text) : Attribute :=
  let value := errorCodeValue code reason
  ⟨attrErrorCode, value, List.replicate (nextMultipleOf4 value.length - value.length) 0⟩

/-- An error is a header and one attribute. -/
theorem encodeBindingError_eq (code : UInt16) (reason : Text) (txn : TransactionId)
    (hfit : (errorCodeValue code reason).length < 2 ^ 16) :
    encodeBindingError code reason txn =
      header bindingError (UInt16.ofNat (encodeAttributes [errorCodeAttribute code reason]).length)
        txn ++
        (encodeAttributes [errorCodeAttribute code reason] ++ []) := by
  have hvalue := ofNat_toNat_of_lt hfit
  have htotal : (encodeAttributes [errorCodeAttribute code reason]).length = attrHeaderLen +
      (errorCodeValue code reason ++ List.replicate
        (nextMultipleOf4 (errorCodeValue code reason).length -
        (errorCodeValue code reason).length) 0).length := by
    simp [errorCodeAttribute, Attribute.encode_length, Nat.add_assoc]
  rw [htotal, encodeBindingError, hvalue]
  simp [errorCodeAttribute, Attribute.encode]

/-- A code below 800 is recovered from its class and its number. -/
theorem errorCode_split {code : UInt16} (h : code < 800) :
    (((code / 100).toUInt8 &&& 0x07) &&& 0x07).toUInt16 * 100 +
      (code % 100).toUInt8.toUInt16 = code := by
  have hlt : code.toNat < 800 := h
  have hclass : ((code / 100).toUInt8 &&& 0x07 &&& 0x07).toNat = code.toNat / 100 := by
    have hand : ∀ n : ℕ, n &&& 7 = n % 8 := fun n => Nat.and_two_pow_sub_one_eq_mod n 3
    simp only [UInt8.toNat_and, UInt16.toNat_toUInt8, UInt16.toNat_div, UInt8.reduceToNat,
      UInt16.reduceToNat, hand]
    omega
  have hnumber : (code % 100).toUInt8.toNat = code.toNat % 100 := by
    simp only [UInt16.toNat_toUInt8, UInt16.toNat_mod, UInt16.reduceToNat]
    omega
  apply UInt16.toNat_inj.mp
  simp only [UInt16.toNat_add, UInt16.toNat_mul, UInt8.toNat_toUInt16, hclass, hnumber,
    UInt16.reduceToNat]
  omega

/-- The value that is sent for a code and a reason is read as the two. -/
theorem visitErrorCode_value {code : UInt16} (reason : Text) (hcode : code < 800) :
    (visitErrorCode attrErrorCode (errorCodeValue code reason) : Exec ε _) =
      .ok (some (some ⟨code, trim reason⟩)) := by
  obtain ⟨value, hvalue⟩ : ∃ value, value = [0x00, 0x00, (code / 100).toUInt8 &&& 0x07,
    (code % 100).toUInt8] := ⟨_, rfl⟩
  have hlen : value.length = 4 := by rw [hvalue]; rfl
  have hbytes : errorCodeValue code reason = value ++ (utf8 reason ++ []) := by
    rw [hvalue, List.append_nil]
    rfl
  have hclass : (index (value ++ (utf8 reason ++ [])) 2 : Exec ε UInt8) =
      .ok ((code / 100).toUInt8 &&& 0x07) := by rw [hvalue]; rfl
  have hnumber : (index (value ++ (utf8 reason ++ [])) 3 : Exec ε UInt8) =
      .ok (code % 100).toUInt8 := by rw [hvalue]; rfl
  obtain ⟨_, hreason⟩ := slice_middle (ε := ε) value (utf8 reason) [] 4
    (value ++ (utf8 reason ++ [])).length hlen.symm (by simp)
  rw [List.append_assoc] at hreason
  rw [hbytes, visitErrorCode, if_pos ⟨rfl, by rw [List.length_append]; omega⟩, hclass,
    hnumber, hreason]
  simp only [Exec.ok_bind, fromUtf8Lossy_utf8, errorCode_split hcode]
  rfl

/-- A code below 800 is read as it was written, with its reason trimmed. -/
theorem parseErrorCode_attribute {code : UInt16} {reason : Text} (hcode : code < 800)
    (hfit : (encodeAttributes [errorCodeAttribute code reason]).length < 2 ^ 16) :
    (parseErrorCode (encodeAttributes [errorCodeAttribute code reason]) : Exec ε _) =
      .ok (some ⟨code, trim reason⟩) := by
  have hpad : WellPadded [errorCodeAttribute code reason] := by
    simp [WellPadded, errorCodeAttribute, Attribute.gap]
  rw [parseErrorCode, walkAttributes_encode _ hpad hfit, visitAttributes]
  have hvisit := visitErrorCode_value (ε := ε) reason hcode
  simp only [errorCodeAttribute, hvisit]
  rfl

/-! ## The round trip -/

/-- The attribute is padded to whole words. -/
theorem errorCodeAttribute_length (code : UInt16) (reason : Text) :
    (encodeAttributes [errorCodeAttribute code reason]).length =
      4 + nextMultipleOf4 (errorCodeValue code reason).length := by
  have hge := nextMultipleOf4_ge (errorCodeValue code reason).length
  simp only [encodeAttributes_cons, encodeAttributes_nil, List.append_nil, Attribute.encode_length,
    errorCodeAttribute, List.length_replicate]
  omega

/-- Messages that fit have attributes that fit. -/
theorem encodeBindingError_fits {code : UInt16} {reason : Text} {txn : TransactionId}
    (hfit : (encodeBindingError code reason txn).length < 20 + 2 ^ 16) :
    (encodeAttributes [errorCodeAttribute code reason]).length < 2 ^ 16 := by
  have hge := nextMultipleOf4_ge (errorCodeValue code reason).length
  have htotal : (encodeBindingError code reason txn).length =
      20 + 4 + nextMultipleOf4 (errorCodeValue code reason).length := by
    simp only [encodeBindingError, List.length_append, header_length, toBe_length,
      List.length_replicate]
    omega
  rw [errorCodeAttribute_length]
  omega

/-- An error response is no success response. -/
theorem parseBindingResponse_error_err {msgLen : UInt16} {txn : TransactionId} {body : Bytes}
    (hlen : msgLen.toNat = body.length) (txn' : TransactionId) :
    ∃ e, parseBindingResponse (header bindingError msgLen txn ++ body) txn' = .err e := by
  apply Exec.eq_err
  · rw [header_eq, parseBindingResponse_returns]
    intro _
    rw [List.length_append, Header.encode_length, ← hlen]
  · intro response hok
    have hresponds := responds_of_parseBindingResponse hok
    rw [header_eq, responds_encode] at hresponds
    exact absurd hresponds.1 (show bindingError ≠ bindingSuccess by decide)

/-- Whatever is encoded is decoded, and every message has the announced length. -/
theorem codec_round_trip :
    (∀ txn, parseBindingRequest (encodeBindingRequest txn) = .ok txn) ∧
    (∀ observed txn, parseBindingResponse (encodeBindingSuccess observed txn) txn =
      .ok ⟨.new observed.ip observed.port⟩) ∧
    (∀ code reason txn, code < 800 → (encodeBindingError code reason txn).length < 20 + 2 ^ 16 →
      parseAuthenticatedError (encodeBindingError code reason txn) txn = .ok ⟨code, trim reason⟩ ∧
        ∃ e, parseBindingResponse (encodeBindingError code reason txn) txn = .err e) ∧
    (∀ txn, WellSized (encodeBindingRequest txn)) ∧
    (∀ observed txn, WellSized (encodeBindingSuccess observed txn)) ∧
    ∀ code reason txn, (encodeBindingError code reason txn).length < 20 + 2 ^ 16 →
      WellSized (encodeBindingError code reason txn) := by
  have hvalue : ∀ {code reason txn}, (encodeBindingError code reason txn).length < 20 + 2 ^ 16 →
      (errorCodeValue code reason).length < 2 ^ 16 := by
    intro code reason txn hfit
    have hattrs := encodeBindingError_fits hfit
    have hge := nextMultipleOf4_ge (errorCodeValue code reason).length
    rw [errorCodeAttribute_length] at hattrs
    omega
  refine ⟨parse_encodeBindingRequest, parse_encodeBindingSuccess, ?_, ?_,
    wellSized_encodeBindingSuccess, ?_⟩
  · intro code reason txn hcode hfit
    have hattrs := encodeBindingError_fits hfit
    have hlen := ofNat_toNat_of_lt hattrs
    rw [encodeBindingError_eq code reason txn (hvalue hfit)]
    constructor
    · rw [parseAuthenticatedError_attrs txn [] hlen, parseErrorCode_attribute hcode hattrs]
      rfl
    · exact parseBindingResponse_error_err (by rw [hlen, List.append_nil]) txn
  · intro txn
    rw [encodeBindingRequest, ← List.append_nil (header _ _ _)]
    exact wellSized_of_body rfl rfl
  · intro code reason txn hfit
    have hattrs := encodeBindingError_fits hfit
    rw [encodeBindingError_eq code reason txn (hvalue hfit)]
    apply wellSized_of_body
    · rw [ofNat_toNat_of_lt hattrs, List.append_nil]
    · rw [List.append_nil, errorCodeAttribute_length]
      unfold nextMultipleOf4
      omega

/-- A rejection whose reason is surrounded by white space. -/
theorem codec_round_trip_unknown_attribute :
    parseAuthenticatedError (encodeBindingError 420 " Unknown Attribute\n".toList sampleTransaction)
      sampleTransaction = .ok ⟨420, "Unknown Attribute".toList⟩ := by
  have h := (codec_round_trip.2.2.1 420 " Unknown Attribute\n".toList sampleTransaction (by decide)
    (by decide)).1
  exact h

end IrohExperiment.Stun

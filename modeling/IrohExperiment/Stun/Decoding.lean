/-
# Decoding (`cloudflare-stun/src/lib.rs`)

When the parsers panic, and what they accept: a success response gives the address in
the first XOR-MAPPED-ADDRESS of its attribute list and nothing else, and no parser
accepts anything that does not belong to the transaction.

The main result is `decoding_returns`: each parser returns on a datagram exactly if the
datagram is not an answer whose length field goes beyond its end; `decoding_panics` is such
a datagram.
-/
import IrohExperiment.Stun.Messages

namespace IrohExperiment.Stun

open Rust

variable {ε α : Type}

/-! ## The fields of a datagram -/

/-- The message type field of a datagram. -/
def messageType (buf : Bytes) : ℕ := beNat (buf.take 2)

/-- The message length field of a datagram. -/
def messageLength (buf : Bytes) : ℕ := beNat ((buf.drop 2).take 2)

/-- The cookie field of a datagram. -/
def messageCookie (buf : Bytes) : ℕ := beNat ((buf.drop 4).take 4)

/-- The transaction field of a datagram. -/
def messageTransaction (buf : Bytes) : Bytes := (buf.drop 8).take 12

/-- The datagram begins like a message of this type, in this transaction. -/
def Responds (buf : Bytes) (msgType : UInt16) (txn : TransactionId) : Prop :=
  20 ≤ buf.length ∧ messageType buf = msgType.toNat ∧ messageCookie buf = magicCookie.toNat ∧
    messageTransaction buf = txn.bytes

instance (buf : Bytes) (msgType : UInt16) (txn : TransactionId) :
    Decidable (Responds buf msgType txn) :=
  inferInstanceAs (Decidable (_ ∧ _))

theorem TransactionId.ext_bytes {a b : TransactionId} (h : a.bytes = b.bytes) : a = b := by
  cases a
  cases b
  simpa using h

/-- The bytes between a prefix and a suffix. -/
theorem field_eq (front part back : Bytes) {i k : ℕ} (hi : i = front.length)
    (hk : k = part.length) :
    ((front ++ (part ++ back)).drop i).take k = part := by
  subst hi hk
  rw [List.drop_left, List.take_left]

section Fields

variable (h : Header) (body : Bytes)

theorem messageType_encode : messageType (h.encode ++ body) = h.msgType.toNat := by
  rw [messageType, ← List.drop_zero (l := h.encode ++ body)]
  refine Eq.trans (congrArg beNat ?_) (beNat_toBe_of_lt (k := 2) h.msgType.toNat_lt)
  exact field_eq [] (toBe 2 h.msgType.toNat) _ rfl (toBe_length ..).symm

theorem messageLength_encode : messageLength (h.encode ++ body) = h.msgLen.toNat := by
  have hfield := field_eq (toBe 2 h.msgType.toNat) (toBe 2 h.msgLen.toNat)
    (toBe 4 h.cookie.toNat ++ h.txn.bytes ++ body) (i := 2) (k := 2) (by simp) (by simp)
  rw [messageLength, ← beNat_toBe_of_lt (k := 2) h.msgLen.toNat_lt, ← hfield]
  simp [Header.encode]

theorem messageCookie_encode : messageCookie (h.encode ++ body) = h.cookie.toNat := by
  have hfield := field_eq (toBe 2 h.msgType.toNat ++ toBe 2 h.msgLen.toNat) (toBe 4 h.cookie.toNat)
    (h.txn.bytes ++ body) (i := 4) (k := 4) (by simp) (by simp)
  rw [messageCookie, ← beNat_toBe_of_lt (k := 4) h.cookie.toNat_lt, ← hfield]
  simp [Header.encode]

theorem messageTransaction_encode : messageTransaction (h.encode ++ body) = h.txn.bytes := by
  have hfield := field_eq (toBe 2 h.msgType.toNat ++ toBe 2 h.msgLen.toNat ++ toBe 4 h.cookie.toNat)
    h.txn.bytes body (i := 8) (k := 12) (by simp) h.txn.length_eq.symm
  rw [messageTransaction, ← hfield]
  simp [Header.encode]

/-- Whether a datagram responds is settled by its header. -/
theorem responds_encode (msgType : UInt16) (txn : TransactionId) :
    Responds (h.encode ++ body) msgType txn ↔ h.Answers msgType txn := by
  unfold Responds Header.Answers
  rw [messageType_encode, messageCookie_encode, messageTransaction_encode, UInt16.toNat_inj,
    UInt32.toNat_inj]
  constructor
  · rintro ⟨-, htype, hcookie, htxn⟩
    exact ⟨htype, hcookie, TransactionId.ext_bytes htxn⟩
  · rintro ⟨htype, hcookie, rfl⟩
    exact ⟨headerLen_le h body, htype, hcookie, rfl⟩

end Fields

/-! ## Panics -/

/-- After the attribute area has been cut off, nothing can panic. -/
theorem attributes_return {h : Header} {body : Bytes}
    {read : { attrs : Bytes // attrs.length = headerLen + h.msgLen.toNat - headerLen } →
      Exec ParseError α} (hread : ∀ attrs, (read attrs).Returns) :
    (slice (h.encode ++ body) headerLen (headerLen + h.msgLen.toNat) >>= read).Returns ↔
      headerLen + h.msgLen.toNat ≤ (h.encode ++ body).length := by
  rw [List.length_append, h.encode_length]
  by_cases hlen : h.msgLen.toNat ≤ body.length
  · obtain ⟨_, hslice⟩ := slice_body (ε := ParseError) h body hlen
    rw [hslice]
    exact ⟨fun _ => Nat.add_le_add_left hlen 20, fun _ => hread _⟩
  · obtain ⟨p, hslice⟩ := slice_short (ε := ParseError) h body (Nat.lt_of_not_le hlen)
    rw [hslice]
    refine ⟨fun hreturns => absurd hreturns (Exec.not_returns_panic p), fun hle => absurd ?_ hlen⟩
    exact Nat.le_of_add_le_add_left hle

/-- The parser of responses panics exactly if the datagram answers and its length field goes
beyond its end. -/
theorem parseBindingResponse_returns (h : Header) (body : Bytes) (txn : TransactionId) :
    (parseBindingResponse (h.encode ++ body) txn).Returns ↔
      (h.Answers bindingSuccess txn ∨ h.Answers bindingError txn →
        headerLen + h.msgLen.toNat ≤ (h.encode ++ body).length) := by
  by_cases hsuccess : h.Answers bindingSuccess txn
  · rw [parseBindingResponse_success h body txn hsuccess, attributes_return]
    · exact ⟨fun hle _ => hle, fun himp => himp (.inl hsuccess)⟩
    · intro attrs
      obtain ⟨found, hfound⟩ := parseXorMappedAddress_ok (ε := ParseError) txn attrs.1
      rw [hfound]
      cases found <;> trivial
  · by_cases herror : h.Answers bindingError txn
    · rw [parseBindingResponse_error h body txn herror, attributes_return]
      · exact ⟨fun hle _ => hle, fun himp => himp (.inr herror)⟩
      · intro attrs
        obtain ⟨found, hfound⟩ := parseErrorCode_ok (ε := ParseError) attrs.1
        rw [hfound]
        cases found <;> trivial
    · have hforeign := not_or.mpr ⟨hsuccess, herror⟩
      obtain ⟨e, he⟩ := parseBindingResponse_foreign h body txn hforeign
      rw [he]
      exact ⟨fun _ hanswers => absurd hanswers hforeign, fun _ => trivial⟩

/-- The parser of refusals panics exactly if the datagram is one and its length field goes beyond
its end. -/
theorem parseAuthenticatedError_returns (h : Header) (body : Bytes) (txn : TransactionId) :
    (parseAuthenticatedError (h.encode ++ body) txn).Returns ↔
      (h.Answers bindingError txn → headerLen + h.msgLen.toNat ≤ (h.encode ++ body).length) := by
  by_cases herror : h.Answers bindingError txn
  · rw [parseAuthenticatedError_error h body txn herror, attributes_return]
    · exact ⟨fun hle _ => hle, fun himp => himp herror⟩
    · intro attrs
      obtain ⟨found, hfound⟩ := parseErrorCode_ok (ε := ParseError) attrs.1
      rw [hfound]
      cases found <;> trivial
  · obtain ⟨e, he⟩ := parseAuthenticatedError_foreign h body txn herror
    rw [he]
    exact ⟨fun _ hanswers => absurd hanswers herror, fun _ => trivial⟩

/-- The parser of requests never panics: it makes no use of the length field. -/
theorem parseBindingRequest_returns (h : Header) (body : Bytes) :
    (parseBindingRequest (h.encode ++ body)).Returns := by
  rw [parseBindingRequest_eq]
  unfold ensure
  split_ifs <;> trivial

/-- Decoding panics exactly on the responses to the expected request whose length field
announces more than was received; the attribute loops come to an end on every area. -/
theorem decoding_returns (buf : Bytes) (txn : TransactionId) :
    ((parseBindingResponse buf txn).Returns ↔
      (Responds buf bindingSuccess txn ∨ Responds buf bindingError txn →
        20 + messageLength buf ≤ buf.length)) ∧
    ((parseAuthenticatedError buf txn).Returns ↔
      (Responds buf bindingError txn → 20 + messageLength buf ≤ buf.length)) ∧
    (parseBindingRequest buf).Returns ∧
    ∀ attrs, (∃ found, (parseXorMappedAddress attrs txn : Exec ParseError _) = .ok found) ∧
      ∃ found, (parseErrorCode attrs : Exec ParseError _) = .ok found := by
  have hloops := fun attrs => And.intro (parseXorMappedAddress_ok (ε := ParseError) txn attrs)
    (parseErrorCode_ok (ε := ParseError) attrs)
  by_cases hlen : 20 ≤ buf.length
  · obtain ⟨h, body, rfl⟩ := exists_header hlen
    rw [responds_encode, responds_encode, messageLength_encode]
    exact ⟨parseBindingResponse_returns h body txn, parseAuthenticatedError_returns h body txn,
      parseBindingRequest_returns h body, hloops⟩
  · -- too short for a header
    have hnone : ∀ msgType, ¬ Responds buf msgType txn := fun _ hr => hlen hr.1
    have hshort : ¬ headerLen ≤ buf.length := hlen
    refine ⟨⟨fun _ hr => absurd hr (by simp [hnone]), fun _ => ?_⟩,
      ⟨fun _ hr => absurd hr (hnone _), fun _ => ?_⟩, ?_, hloops⟩
    · rw [parseBindingResponse, ensure_neg hshort]
      trivial
    · rw [parseAuthenticatedError, ensure_neg hshort]
      trivial
    · rw [parseBindingRequest, ensure_neg hshort]
      trivial

/-- A transaction for examples. -/
def sampleTransaction : TransactionId := ⟨List.replicate 12 7, rfl⟩

/-- A success response of 20 bytes that announces one more. -/
theorem decoding_panics : ¬ ∀ (buf : Bytes) (txn : TransactionId),
    (parseBindingResponse buf txn).Returns ∧ (parseAuthenticatedError buf txn).Returns ∧
      (parseBindingRequest buf).Returns := by
  intro h
  have hpanic : ¬ (parseBindingResponse (header bindingSuccess 1 sampleTransaction)
      sampleTransaction).Returns := by decide
  exact hpanic (h _ _).1

end IrohExperiment.Stun

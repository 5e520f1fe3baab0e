/-
# Messages (`cloudflare-stun/src/lib.rs`)

A message is a header and a body.  The three parsers are described on messages: what
they do with messages that are not meant for them, and what they read from the body
of the others.

Every datagram of twenty bytes is a header and a body (`exists_header`), so the parsers can
be described by what the header says.  `parseBindingResponse_foreign` and its siblings are
about messages that answer something else.
-/
import IrohExperiment.Stun.Attributes

namespace IrohExperiment.Stun

open Rust

variable {ε α : Type}

/-! ## Headers -/

/-- The fixed part of a message. -/
structure Header where
  msgType : UInt16
  msgLen : UInt16
  cookie : UInt32
  txn : TransactionId
  deriving DecidableEq, Repr

namespace Header

/-- The bytes of a header. -/
def encode (h : Header) : Bytes :=
  toBe 2 h.msgType.toNat ++ toBe 2 h.msgLen.toNat ++ toBe 4 h.cookie.toNat ++ h.txn.bytes

/-- The message is of this type, and belongs to this transaction. -/
def Answers (h : Header) (msgType : UInt16) (txn : TransactionId) : Prop :=
  h.msgType = msgType ∧ h.cookie = magicCookie ∧ h.txn = txn

instance (h : Header) (msgType : UInt16) (txn : TransactionId) :
    Decidable (h.Answers msgType txn) :=
  inferInstanceAs (Decidable (_ ∧ _))

@[simp] theorem encode_length (h : Header) : h.encode.length = 20 := by
  simp [encode, h.txn.length_eq]

end Header

theorem header_eq (msgType msgLen : UInt16) (txn : TransactionId) :
    header msgType msgLen txn = Header.encode ⟨msgType, msgLen, magicCookie, txn⟩ := rfl

theorem header_length (msgType msgLen : UInt16) (txn : TransactionId) :
    (header msgType msgLen txn).length = 20 := by
  rw [header_eq, Header.encode_length]

/-- Two bytes are a `u16`. -/
theorem toBe_u16 (part : Bytes) (h : part.length = 2) : ∃ x : UInt16, toBe 2 x.toNat = part := by
  have hlt := beNat_lt part
  rw [h] at hlt
  refine ⟨UInt16.ofNat (beNat part), ?_⟩
  rw [UInt16.toNat_ofNat', Nat.mod_eq_of_lt (show beNat part < 2 ^ 16 from hlt), ← h, toBe_beNat]

/-- Four bytes are a `u32`. -/
theorem toBe_u32 (part : Bytes) (h : part.length = 4) : ∃ x : UInt32, toBe 4 x.toNat = part := by
  have hlt := beNat_lt part
  rw [h] at hlt
  refine ⟨UInt32.ofNat (beNat part), ?_⟩
  rw [UInt32.toNat_ofNat', Nat.mod_eq_of_lt (show beNat part < 2 ^ 32 from hlt), ← h, toBe_beNat]

/-- Everything that is long enough is a message. -/
theorem exists_header {buf : Bytes} (h : 20 ≤ buf.length) :
    ∃ (hd : Header) (body : Bytes), buf = hd.encode ++ body := by
  obtain ⟨msgType, htype⟩ := toBe_u16 (buf.take 2) (by simp; omega)
  obtain ⟨msgLen, hlen⟩ := toBe_u16 ((buf.drop 2).take 2) (by simp; omega)
  obtain ⟨cookie, hcookie⟩ := toBe_u32 ((buf.drop 4).take 4) (by simp; omega)
  refine ⟨⟨msgType, msgLen, cookie, (buf.drop 8).take 12, by simp; omega⟩, buf.drop 20, ?_⟩
  unfold Header.encode
  rw [htype, hlen, hcookie]
  have hsplit : ∀ i k, (buf.drop i).take k ++ buf.drop (i + k) = buf.drop i := by
    intro i k
    rw [← List.drop_drop]
    exact List.take_append_drop ..
  have hfront := List.take_append_drop 2 buf
  rw [List.append_assoc, hsplit 8 12, List.append_assoc, hsplit 4 4, List.append_assoc, hsplit 2 2,
    hfront]

/-! ## What is read from a header -/

section Read

variable (h : Header) (body : Bytes)

/-- The type of a message is at its front. -/
theorem u16At_type : (u16At (h.encode ++ body) 0 : Exec ε UInt16) = .ok h.msgType := by
  have hread := u16At_toBe (ε := ε) []
    (toBe 2 h.msgLen.toNat ++ toBe 4 h.cookie.toNat ++ h.txn.bytes ++
    body) h.msgType (i := 0) rfl
  simpa [Header.encode] using hread

/-- The length field follows the type. -/
theorem u16At_length : (u16At (h.encode ++ body) 2 : Exec ε UInt16) = .ok h.msgLen := by
  have hread := u16At_toBe (ε := ε) (toBe 2 h.msgType.toNat)
    (toBe 4 h.cookie.toNat ++ h.txn.bytes ++
    body) h.msgLen (i := 2) (toBe_length ..).symm
  simpa [Header.encode] using hread

/-- The cookie follows the length field. -/
theorem u32At_cookie : (u32At (h.encode ++ body) 4 : Exec ε UInt32) = .ok h.cookie := by
  have hread := u32At_toBe (ε := ε) (toBe 2 h.msgType.toNat ++ toBe 2 h.msgLen.toNat)
    (h.txn.bytes ++
    body) h.cookie (i := 4) (by simp)
  simpa [Header.encode] using hread

/-- The transaction is the rest of the header. -/
theorem transactionId_eq : (transactionId (h.encode ++ body) : Exec ε TransactionId) =
    .ok h.txn := by
  obtain ⟨_, hread⟩ := slice_middle (ε := ε)
    (toBe 2 h.msgType.toNat ++ toBe 2 h.msgLen.toNat ++ toBe 4 h.cookie.toNat) h.txn.bytes body 8 20
    (by simp) (by simp [h.txn.length_eq])
  have hbytes : toBe 2 h.msgType.toNat ++ toBe 2 h.msgLen.toNat ++ toBe 4 h.cookie.toNat ++
    h.txn.bytes ++
      body = h.encode ++ body := rfl
  rw [hbytes] at hread
  unfold transactionId
  rw [hread]
  rfl

theorem headerLen_le : headerLen ≤ (h.encode ++ body).length := by
  rw [List.length_append, h.encode_length]
  exact Nat.le_add_right 20 _

/-- The first two bits decide whether a message looks like STUN. -/
theorem isStunPacket_eq : (isStunPacket (h.encode ++ body) : Exec ε Bool) =
    .ok (UInt8.ofNat (h.msgType.toNat / 256) &&& 0xc0 = 0) := by
  unfold isStunPacket
  rw [if_pos (headerLen_le h body)]
  rfl

/-- The body is cut off after the length that the header announces, if it is so long. -/
theorem slice_body {length : ℕ} (hlen : length ≤ body.length) :
    ∃ hpart, (slice (h.encode ++ body) headerLen (headerLen + length) : Exec ε _) =
      .ok ⟨body.take length, hpart⟩ := by
  obtain ⟨hpart, hread⟩ := slice_middle (ε := ε) h.encode (body.take length) (body.drop length)
    headerLen (headerLen + length) h.encode_length.symm (by simp [hlen])
  rw [List.append_assoc, List.take_append_drop] at hread
  exact ⟨hpart, hread⟩

/-- If the header announces more than there is, the thread panics. -/
theorem slice_short {length : ℕ} (hlen : body.length < length) :
    ∃ p, (slice (h.encode ++ body) headerLen (headerLen + length) : Exec ε _) = .panic p := by
  refine ⟨_, slice_panic ?_⟩
  rw [List.length_append, h.encode_length, headerLen]
  omega

end Read

/-! ## What the parsers do with a message -/

section Parse

variable (h : Header) (body : Bytes) (txn : TransactionId)

/-- Looking for an error code never fails. -/
theorem parseErrorCode_ok (attrs : Bytes) :
    ∃ found, (parseErrorCode attrs : Exec ε _) = .ok found := by
  refine walkAttributes_ok (fun attrType value => ?_) attrs
  unfold visitErrorCode
  split_ifs with hcode
  · obtain ⟨_, hreason⟩ := slice_ok (ε := ε) value hcode.2 le_rfl
    rw [index_ok (show 2 < value.length by omega),
      index_ok (show 3 < value.length by omega), hreason]
    exact ⟨_, rfl⟩
  · exact ⟨none, rfl⟩

/-- Decoding a value never fails. -/
theorem decodeXorMapped_ok (value : Bytes) :
    ∃ found, (decodeXorMapped value txn : Exec ε _) = .ok found := by
  unfold decodeXorMapped
  by_cases hshort : value.length < 4
  · rw [if_pos hshort]
    exact ⟨none, rfl⟩
  · obtain ⟨port, hport⟩ := u16At_ok (ε := ε) value 2 (by omega)
    rw [if_neg hshort, index_ok (show 1 < value.length by omega), hport]
    simp only [Exec.ok_bind]
    split
    · split <;> exact ⟨_, rfl⟩
    · split_ifs <;> exact ⟨_, rfl⟩

/-- Looking for an address never fails. -/
theorem parseXorMappedAddress_ok (attrs : Bytes) :
    ∃ found, (parseXorMappedAddress attrs txn : Exec ε _) = .ok found := by
  refine walkAttributes_ok (fun attrType value => ?_) attrs
  unfold visitXorMapped
  split_ifs
  · obtain ⟨found, hfound⟩ := decodeXorMapped_ok (ε := ε) txn value
    rw [hfound]
    exact ⟨_, rfl⟩
  · exact ⟨none, rfl⟩

/-- A message that is no response to the request is rejected. -/
theorem parseBindingResponse_foreign
    (hforeign : ¬ (h.Answers bindingSuccess txn ∨ h.Answers bindingError txn)) :
    ∃ e, parseBindingResponse (h.encode ++ body) txn = .err e := by
  unfold parseBindingResponse
  rw [ensure_pos (headerLen_le h body), isStunPacket_eq, u16At_type, u16At_length, u32At_cookie,
    transactionId_eq]
  simp only [Exec.ok_bind, decide_eq_true_eq]
  by_cases htop : UInt8.ofNat (h.msgType.toNat / 256) &&& 0xc0 = 0
  · rw [ensure_pos htop, Exec.ok_bind]
    by_cases htype : h.msgType = bindingSuccess ∨ h.msgType = bindingError
    · rw [ensure_pos htype, Exec.ok_bind]
      by_cases hcookie : h.cookie = magicCookie
      · rw [ensure_pos hcookie, Exec.ok_bind]
        have htxn : h.txn ≠ txn := by
          intro htxn
          exact hforeign (htype.imp (fun ht => ⟨ht, hcookie, htxn⟩) fun ht => ⟨ht, hcookie, htxn⟩)
        split_ifs
        · rw [ensure_neg htxn]
          exact ⟨_, rfl⟩
        · rw [ensure_neg htxn]
          exact ⟨_, rfl⟩
      · rw [ensure_neg hcookie]
        exact ⟨_, rfl⟩
    · rw [ensure_neg htype]
      exact ⟨_, rfl⟩
  · rw [ensure_neg htop]
    exact ⟨_, rfl⟩

/-- A success response is read up to its announced length. -/
theorem parseBindingResponse_success (hanswers : h.Answers bindingSuccess txn) :
    parseBindingResponse (h.encode ++ body) txn = (do
      let attrs ← slice (h.encode ++ body) headerLen (headerLen + h.msgLen.toNat)
      let addr ← okOr (← parseXorMappedAddress attrs.1 txn) .noAddress
      return ⟨addr⟩) := by
  obtain ⟨htype, hcookie, htxn⟩ := hanswers
  unfold parseBindingResponse
  rw [ensure_pos (headerLen_le h body), isStunPacket_eq, u16At_type, u16At_length, u32At_cookie,
    transactionId_eq]
  simp only [Exec.ok_bind, htype, hcookie, htxn]
  rfl

/-- An error response is read up to its announced length. -/
theorem parseBindingResponse_error (hanswers : h.Answers bindingError txn) :
    parseBindingResponse (h.encode ++ body) txn = (do
      let attrs ← slice (h.encode ++ body) headerLen (headerLen + h.msgLen.toNat)
      let err ← okOr (← parseErrorCode attrs.1) .noErrorCodeInResponse
      .err (.serverError err)) := by
  obtain ⟨htype, hcookie, htxn⟩ := hanswers
  unfold parseBindingResponse
  rw [ensure_pos (headerLen_le h body), isStunPacket_eq, u16At_type, u16At_length, u32At_cookie,
    transactionId_eq]
  simp only [Exec.ok_bind, htype, hcookie, htxn]
  rfl

/-- A message that is no error response to the request is rejected. -/
theorem parseAuthenticatedError_foreign (hforeign : ¬ h.Answers bindingError txn) :
    ∃ e, parseAuthenticatedError (h.encode ++ body) txn = .err e := by
  unfold parseAuthenticatedError
  rw [ensure_pos (headerLen_le h body), u16At_type, u16At_length, u32At_cookie, transactionId_eq]
  simp only [Exec.ok_bind]
  by_cases htype : h.msgType = bindingError
  · rw [ensure_pos htype, Exec.ok_bind]
    by_cases hcookie : h.cookie = magicCookie
    · rw [ensure_pos hcookie, Exec.ok_bind, ensure_neg fun htxn => hforeign ⟨htype, hcookie, htxn⟩]
      exact ⟨_, rfl⟩
    · rw [ensure_neg hcookie]
      exact ⟨_, rfl⟩
  · rw [ensure_neg htype]
    exact ⟨_, rfl⟩

/-- An error response is read up to its announced length. -/
theorem parseAuthenticatedError_error (hanswers : h.Answers bindingError txn) :
    parseAuthenticatedError (h.encode ++ body) txn = (do
      let attrs ← slice (h.encode ++ body) headerLen (headerLen + h.msgLen.toNat)
      okOr (← parseErrorCode attrs.1) .noErrorCode) := by
  obtain ⟨htype, hcookie, htxn⟩ := hanswers
  unfold parseAuthenticatedError
  rw [ensure_pos (headerLen_le h body), u16At_type, u16At_length, u32At_cookie, transactionId_eq]
  simp only [Exec.ok_bind, htype, hcookie, htxn]
  rfl

/-- A request is settled by its header. -/
theorem parseBindingRequest_eq : parseBindingRequest (h.encode ++ body) = (do
    ensure (UInt8.ofNat (h.msgType.toNat / 256) &&& 0xc0 = 0) .notStun
    ensure (h.msgType = bindingRequest) (.unexpectedType h.msgType)
    ensure (h.cookie = magicCookie) .cookieMismatch
    return h.txn) := by
  unfold parseBindingRequest
  rw [ensure_pos (headerLen_le h body), isStunPacket_eq, u16At_type, u32At_cookie, transactionId_eq]
  simp only [Exec.ok_bind, decide_eq_true_eq]
  rfl

/-- A complete success response is decided by its attribute area. -/
theorem parseBindingResponse_attrs {msgLen : UInt16} {attrs : Bytes} (trailing : Bytes)
    (hlen : msgLen.toNat = attrs.length) :
    parseBindingResponse (header bindingSuccess msgLen txn ++ (attrs ++ trailing)) txn = (do
      let addr ← okOr (← parseXorMappedAddress attrs txn) .noAddress
      return ⟨addr⟩) := by
  obtain ⟨_, hslice⟩ := slice_middle (ε := ParseError) (header bindingSuccess msgLen txn) attrs
    trailing headerLen (headerLen + msgLen.toNat)
      (header_length ..).symm (by simp [hlen, header_length])
  rw [List.append_assoc] at hslice
  rw [header_eq] at hslice ⊢
  rw [parseBindingResponse_success _ _ txn ⟨rfl, rfl, rfl⟩, hslice]
  rfl

/-- A complete error response is decided by its attribute area. -/
theorem parseAuthenticatedError_attrs {msgLen : UInt16} {attrs : Bytes} (trailing : Bytes)
    (hlen : msgLen.toNat = attrs.length) :
    parseAuthenticatedError (header bindingError msgLen txn ++ (attrs ++ trailing)) txn =
      (do okOr (← parseErrorCode attrs) .noErrorCode) := by
  obtain ⟨_, hslice⟩ := slice_middle (ε := ParseError) (header bindingError msgLen txn) attrs
    trailing headerLen (headerLen + msgLen.toNat)
      (header_length ..).symm (by simp [hlen, header_length])
  rw [List.append_assoc] at hslice
  rw [header_eq] at hslice ⊢
  rw [parseAuthenticatedError_error _ _ txn ⟨rfl, rfl, rfl⟩, hslice]
  rfl

end Parse

end IrohExperiment.Stun

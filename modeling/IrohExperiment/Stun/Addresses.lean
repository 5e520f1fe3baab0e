/-
# The address of a success response (`cloudflare-stun/src/lib.rs`)

XOR-MAPPED-ADDRESS values and the addresses they stand for, and the main result about
success responses: the first XOR-MAPPED-ADDRESS of the attribute list decides.

`Decodes` says which values stand for which address; `decodes_of_decodeXorMapped` and its
converse say that the code reads exactly these.  The main result is `success_first_match`,
with any padding and any attributes before and behind.
-/
import IrohExperiment.Stun.Decoding

namespace IrohExperiment.Stun

open Rust

variable {ε α : Type}

/-! ## XOR -/

theorem xor_cancel16 (x mask : UInt16) : x ^^^ mask ^^^ mask = x := by
  rw [UInt16.xor_assoc, UInt16.xor_self, UInt16.xor_zero]

theorem xor_cancel32 (x mask : UInt32) : x ^^^ mask ^^^ mask = x := by
  rw [UInt32.xor_assoc, UInt32.xor_self, UInt32.xor_zero]

/-- XORing twice with the same mask gives the octets back. -/
theorem zipWith_xor_cancel (octets mask : Bytes) (h : octets.length = mask.length) :
    (octets.zipWith (· ^^^ ·) mask).zipWith (· ^^^ ·) mask = octets := by
  induction octets generalizing mask with
  | nil => simp
  | cons octet octets ih =>
    cases mask with
    | nil => cases h
    | cons byte mask =>
      have hbyte : octet ^^^ byte ^^^ byte = octet := by
        rw [UInt8.xor_assoc, UInt8.xor_self, UInt8.xor_zero]
      simp only [List.zipWith_cons_cons, hbyte, ih mask (Nat.succ.inj h)]

theorem xorOctets_cancel {octets : Bytes} (h : octets.length = 16) (txn : TransactionId) :
    xorOctets (xorOctets octets txn) txn = octets :=
  zipWith_xor_cancel _ _ (by simp [h, xorMask, txn.length_eq])

/-! ## Values -/

/-- What a value of XOR-MAPPED-ADDRESS stands for: the second byte is the family, and
port and address are XORed with the cookie, or with the cookie and the transaction id. -/
inductive Decodes (txn : TransactionId) : Bytes → SocketAddr → Prop
  | v4 (reserved : UInt8) (port : UInt16) (ip : Ipv4Addr) (tail : Bytes) :
    Decodes txn (reserved :: 0x01 :: (toBe 2 (port ^^^ cookiePort).toNat ++
      (toBe 4 (ip.bits ^^^ magicCookie).toNat ++ tail))) (.v4 ip port)
  | v6 (reserved : UInt8) (port : UInt16) (ip : Ipv6Addr) (tail : Bytes) :
    Decodes txn (reserved :: 0x02 :: (toBe 2 (port ^^^ cookiePort).toNat ++
      (xorOctets ip.octets txn ++ tail))) (.v6 ip port 0 0)

/-- The port of a value. -/
theorem u16At_port (a b : UInt8) (port : UInt16) (tail : Bytes) :
    (u16At (a :: b :: (toBe 2 port.toNat ++ tail)) 2 : Exec ε UInt16) = .ok port :=
  u16At_toBe [a, b] tail port rfl

theorem decodeXorMapped_of_decodes {txn : TransactionId} {value : Bytes} {addr : SocketAddr}
    (h : Decodes txn value addr) : (decodeXorMapped value txn : Exec ε _) = .ok (some addr) := by
  cases h with
  | v4 reserved port ip tail =>
    unfold decodeXorMapped
    rw [if_neg (by simp), u16At_port]
    obtain ⟨a, b, c, d, hbytes, hread⟩ := exists_toBe_u32 (ip.bits ^^^ magicCookie)
    rw [hbytes]
    simp only [index, UInt16.toNat_xor, List.cons_append, List.nil_append, List.length_cons,
      List.length_append, toBe_length, lt_add_iff_pos_left, Order.lt_add_one_iff, zero_le,
      getElem?_pos, List.getElem_cons_succ, List.getElem_cons_zero, List.drop_succ_cons,
      List.drop_left', List.take_succ_cons, List.take_zero, SocketAddr.new, hread, xor_cancel32,
      Exec.pure_eq, List.length_take, Nat.reduceEqDiff, inf_eq_left, Exec.ok_bind, xor_cancel16,
      ↓reduceIte]
  | v6 reserved port ip tail =>
    have hlen := xorOctets_length ip.length_eq txn
    unfold decodeXorMapped
    rw [if_neg (by simp), u16At_port]
    simp only [index, UInt16.toNat_xor, List.length_cons, List.length_append, toBe_length, hlen,
      lt_add_iff_pos_left, Order.lt_add_one_iff, zero_le, getElem?_pos, List.getElem_cons_succ,
      List.getElem_cons_zero, List.drop_succ_cons, List.drop_left', SocketAddr.new, Exec.pure_eq,
      List.take_left', ↓reduceDIte, xorOctets_cancel ip.length_eq, Exec.ok_bind, xor_cancel16,
      (by decide : (2 : UInt8) ≠ 1), ↓reduceIte]

/-- A value that decodes stands for what it decodes to. -/
theorem decodes_of_decodeXorMapped {txn : TransactionId} {value : Bytes} {addr : SocketAddr}
    (h : (decodeXorMapped value txn : Exec ε _) = .ok (some addr)) : Decodes txn value addr := by
  unfold decodeXorMapped at h
  by_cases hshort : value.length < 4
  · rw [if_pos hshort] at h
    cases h
  · obtain ⟨reserved, family, p₀, p₁, tail, rfl⟩ : ∃ reserved family p₀ p₁ tail,
        value = reserved :: family :: p₀ :: p₁ :: tail := by
      match value, hshort with
      | reserved :: family :: p₀ :: p₁ :: tail, _ => exact ⟨reserved, family, p₀, p₁, tail, rfl⟩
      | [], hshort | [_], hshort | [_, _], hshort | [_, _, _], hshort => simp at hshort
    have hread : (u16At (reserved :: family :: p₀ :: p₁ :: tail) 2 : Exec ε UInt16) =
        .ok (u16FromBe p₀ p₁) := rfl
    have hport : toBe 2 ((u16FromBe p₀ p₁ ^^^ cookiePort) ^^^ cookiePort).toNat = [p₀, p₁] := by
      rw [xor_cancel16, toBe_u16FromBe]
    rw [if_neg hshort, hread] at h
    simp only [Exec.ok_bind, index, List.getElem?_cons_succ, List.getElem?_cons_zero,
      List.drop_succ_cons, List.drop_zero] at h
    split_ifs at h with hfamily hfamily' hlen
    · -- IPv4
      subst hfamily
      split at h
      · rename_i a b c d htake
        obtain rfl := Option.some.inj (Exec.ok.inj h)
        have hip : toBe 4 ((u32FromBe a b c d ^^^ magicCookie) ^^^ magicCookie).toNat =
            [a, b, c, d] := by
          rw [xor_cancel32, toBe_u32FromBe]
        have hvalue : Decodes txn _ _ := .v4 reserved (u16FromBe p₀ p₁ ^^^ cookiePort)
          ⟨u32FromBe a b c d ^^^ magicCookie⟩ (tail.drop 4)
        rw [hport, hip, ← htake, List.take_append_drop] at hvalue
        exact hvalue
      · cases h
    · -- IPv6
      subst hfamily'
      obtain rfl := Option.some.inj (Exec.ok.inj h)
      have hvalue : Decodes txn _ _ := .v6 reserved (u16FromBe p₀ p₁ ^^^ cookiePort)
        ⟨xorOctets (tail.take 16) txn, xorOctets_length hlen txn⟩ (tail.drop 16)
      rw [hport, xorOctets_cancel hlen, List.take_append_drop] at hvalue
      exact hvalue
    · cases h
    · cases h

/-! ## The first match -/

/-- The first XOR-MAPPED-ADDRESS of the list stands for this address. -/
def FirstAddress (txn : TransactionId) (attrs : List Attribute) (addr : SocketAddr) : Prop :=
  ∃ before first after, attrs = before ++ first :: after ∧
    (∀ a ∈ before, a.attrType ≠ attrXorMappedAddress) ∧ first.attrType = attrXorMappedAddress ∧
    Decodes txn first.value addr

theorem firstAddress_cons_self {txn : TransactionId} {a : Attribute} {rest : List Attribute}
    {addr : SocketAddr} (ha : a.attrType = attrXorMappedAddress) :
    FirstAddress txn (a :: rest) addr ↔ Decodes txn a.value addr := by
  constructor
  · rintro ⟨before, first, after, hlist, hbefore, hfirst, hdecodes⟩
    cases before with
    | nil =>
      obtain ⟨rfl, rfl⟩ := List.cons.inj hlist
      exact hdecodes
    | cons b before =>
      obtain ⟨rfl, -⟩ := List.cons.inj hlist
      exact absurd ha (hbefore a List.mem_cons_self)
  · intro hdecodes
    exact ⟨[], a, rest, rfl, by simp, ha, hdecodes⟩

theorem firstAddress_cons_other {txn : TransactionId} {a : Attribute} {rest : List Attribute}
    {addr : SocketAddr} (ha : a.attrType ≠ attrXorMappedAddress) :
    FirstAddress txn (a :: rest) addr ↔ FirstAddress txn rest addr := by
  constructor
  · rintro ⟨before, first, after, hlist, hbefore, hfirst, hdecodes⟩
    cases before with
    | nil =>
      obtain ⟨rfl, -⟩ := List.cons.inj hlist
      exact absurd hfirst ha
    | cons b before =>
      obtain ⟨-, rfl⟩ := List.cons.inj hlist
      exact ⟨before, first, after, rfl, fun c hc => hbefore c (List.mem_cons_of_mem _ hc), hfirst,
        hdecodes⟩
  · rintro ⟨before, first, after, rfl, hbefore, hfirst, hdecodes⟩
    refine ⟨a :: before, first, after, rfl, fun c hc => ?_, hfirst, hdecodes⟩
    rcases List.mem_cons.mp hc with rfl | hc
    · exact ha
    · exact hbefore c hc

/-- The visits find the address that the first XOR-MAPPED-ADDRESS stands for. -/
theorem visitAttributes_xorMapped (txn : TransactionId) (attrs : List Attribute)
    (addr : SocketAddr) :
    (visitAttributes (visitXorMapped txn) attrs : Exec ε _) = .ok (some addr) ↔
      FirstAddress txn attrs addr := by
  induction attrs with
  | nil =>
    constructor
    · intro h
      cases h
    · rintro ⟨before, first, after, hlist, -⟩
      cases before <;> cases hlist
  | cons a rest ih =>
    by_cases ha : a.attrType = attrXorMappedAddress
    · rw [firstAddress_cons_self ha]
      obtain ⟨found, hfound⟩ := decodeXorMapped_ok (ε := ε) txn a.value
      have hvisit : (visitAttributes (visitXorMapped txn) (a :: rest) : Exec ε _) = .ok found := by
        rw [visitAttributes, visitXorMapped, if_pos ha, hfound]
        rfl
      rw [hvisit, ← hfound]
      exact ⟨decodes_of_decodeXorMapped, decodeXorMapped_of_decodes⟩
    · rw [firstAddress_cons_other ha, ← ih, visitAttributes, visitXorMapped, if_neg ha]
      rfl

/-- The bytes of a success response with a list of attributes. -/
def successMessage (txn : TransactionId) (attrs : List Attribute) : Bytes :=
  header bindingSuccess (UInt16.ofNat (encodeAttributes attrs).length) txn ++ encodeAttributes attrs

theorem parse_successMessage (txn : TransactionId) {attrs : List Attribute} (trailing : Bytes)
    (hpad : WellPadded attrs) (hfit : (encodeAttributes attrs).length < 2 ^ 16)
    (addr : SocketAddr) :
    parseBindingResponse (successMessage txn attrs ++ trailing) txn = .ok ⟨addr⟩ ↔
      FirstAddress txn attrs addr := by
  have hlen : (UInt16.ofNat (encodeAttributes attrs).length).toNat =
      (encodeAttributes attrs).length := by
    rw [UInt16.toNat_ofNat']
    exact Nat.mod_eq_of_lt hfit
  have hwalk : (parseXorMappedAddress (encodeAttributes attrs) txn : Exec ParseError _) =
      visitAttributes (visitXorMapped txn) attrs := walkAttributes_encode _ hpad hfit
  rw [successMessage, List.append_assoc, parseBindingResponse_attrs txn trailing hlen, hwalk,
    Exec.bind_eq_ok, ← visitAttributes_xorMapped (ε := ParseError)]
  constructor
  · rintro ⟨found, hfound, hok⟩
    cases found with
    | none => cases hok
    | some found =>
      cases hok
      exact hfound
  · intro hfound
    exact ⟨some addr, hfound, rfl⟩

/-- Only success responses of the transaction are accepted. -/
theorem responds_of_parseBindingResponse {buf : Bytes} {txn : TransactionId}
    {response : BindingResponse} (hok : parseBindingResponse buf txn = .ok response) :
    Responds buf bindingSuccess txn := by
  by_contra hforeign
  have hlen : 20 ≤ buf.length := by
    by_contra hshort
    rw [parseBindingResponse, ensure_neg (show ¬ headerLen ≤ buf.length from hshort)] at hok
    cases hok
  obtain ⟨h, body, rfl⟩ := exists_header hlen
  rw [responds_encode] at hforeign
  by_cases herror : h.Answers bindingError txn
  · rw [parseBindingResponse_error h body txn herror] at hok
    obtain ⟨attrs, -, hok⟩ := Exec.bind_eq_ok.mp hok
    obtain ⟨found, -, hok⟩ := Exec.bind_eq_ok.mp hok
    obtain ⟨err, -, hok⟩ := Exec.bind_eq_ok.mp hok
    cases hok
  · obtain ⟨e, he⟩ := parseBindingResponse_foreign h body txn (not_or.mpr ⟨hforeign, herror⟩)
    rw [he] at hok
    cases hok

/-- Only error responses of the transaction are accepted. -/
theorem responds_of_parseAuthenticatedError {buf : Bytes} {txn : TransactionId} {err : StunError}
    (hok : parseAuthenticatedError buf txn = .ok err) : Responds buf bindingError txn := by
  by_contra hforeign
  have hlen : 20 ≤ buf.length := by
    by_contra hshort
    rw [parseAuthenticatedError, ensure_neg (show ¬ headerLen ≤ buf.length from hshort)] at hok
    cases hok
  obtain ⟨h, body, rfl⟩ := exists_header hlen
  rw [responds_encode] at hforeign
  obtain ⟨e, he⟩ := parseAuthenticatedError_foreign h body txn hforeign
  rw [he] at hok
  cases hok

/-- A success response is decided by its first XOR-MAPPED-ADDRESS; and only messages of
the right type, with the cookie and the expected transaction id, are ever accepted. -/
theorem success_first_match :
    (∀ (txn : TransactionId) (attrs : List Attribute) (trailing : Bytes), WellPadded attrs →
      (encodeAttributes attrs).length < 2 ^ 16 → ∀ addr,
        parseBindingResponse (successMessage txn attrs ++ trailing) txn = .ok ⟨addr⟩ ↔
          FirstAddress txn attrs addr) ∧
    (∀ buf txn response, parseBindingResponse buf txn = .ok response →
      Responds buf bindingSuccess txn) ∧
    ∀ buf txn err, parseAuthenticatedError buf txn = .ok err → Responds buf bindingError txn :=
  ⟨fun txn _ trailing hpad hfit addr => parse_successMessage txn trailing hpad hfit addr,
    fun _ _ _ hok => responds_of_parseBindingResponse hok,
    fun _ _ _ hok => responds_of_parseAuthenticatedError hok⟩

/-- An attribute of three bytes, filled up with something, and then an address. -/
def paddedAttributes : List Attribute :=
  [⟨0x8022, [97, 98, 99], [0xff]⟩,
    ⟨attrXorMappedAddress, [0, 1] ++ (toBe 2 (9999 ^^^ cookiePort).toNat ++
      (toBe 4 ((0xc6336407 : UInt32) ^^^ magicCookie).toNat ++ [])), []⟩]

theorem success_first_match_padded :
    parseBindingResponse (successMessage sampleTransaction paddedAttributes ++ [1, 2, 3])
      sampleTransaction = .ok ⟨.v4 ⟨0xc6336407⟩ 9999⟩ := by
  refine (success_first_match.1 sampleTransaction paddedAttributes [1, 2, 3] ?_
    (by decide) _).mpr ?_
  · exact ⟨rfl, Nat.zero_le _⟩
  · exact ⟨[⟨0x8022, [97, 98, 99], [0xff]⟩], _, [], rfl, by decide, rfl, .v4 0 9999 ⟨0xc6336407⟩ []⟩

end IrohExperiment.Stun

/-
# Attribute lists (`cloudflare-stun/src/lib.rs`)

What the walk over an attribute area sees: on every area it comes to an end without
a panic, and on the encoding of a list of attributes it visits one after the other,
whatever their padding holds.

`walkAttributes` is the loop that the parsers share, with what to do at an attribute as a
parameter.  The main lemmas are `walkAttributes_ok`, that it never panics, and
`walkAttributes_encode`.
-/
import IrohExperiment.Stun.Codec

namespace IrohExperiment.Stun

open Rust

variable {ε α : Type}

/-! ## The end of a walk -/

theorem u16At_ok (bytes : Bytes) (i : ℕ) (h : i + 1 < bytes.length) :
    ∃ x, (u16At bytes i : Exec ε UInt16) = .ok x := by
  unfold u16At
  rw [index_ok h, index_ok (by omega)]
  exact ⟨_, rfl⟩

theorem nextMultipleOf4_ge (n : ℕ) : n ≤ nextMultipleOf4 n := by
  unfold nextMultipleOf4
  omega

/-- A walk whose visits return comes to its end. -/
theorem walkAttributes_ok {visit : UInt16 → Bytes → Exec ε (Option (Option α))}
    (hvisit : ∀ attrType value, ∃ found, visit attrType value = .ok found) (attrs : Bytes) :
    ∃ found, walkAttributes visit attrs = .ok found := by
  induction hn : attrs.length using Nat.strong_induction_on generalizing attrs with
  | _ n ih =>
    subst hn
    rw [walkAttributes]
    by_cases hheader : attrs.length < attrHeaderLen
    · rw [dif_pos hheader]
      exact ⟨none, rfl⟩
    · rw [dif_neg hheader]
      unfold attrHeaderLen at *
      obtain ⟨attrType, htype⟩ := u16At_ok (ε := ε) attrs 0 (by omega)
      obtain ⟨attrLen, hlen⟩ := u16At_ok (ε := ε) attrs 2 (by omega)
      rw [htype, hlen]
      simp only [Exec.ok_bind]
      split_ifs with hend
      · exact ⟨none, rfl⟩
      · obtain ⟨_, hvalue⟩ := slice_ok (ε := ε) attrs (Nat.le_add_right 4 attrLen.toNat)
          (by omega)
        rw [hvalue]
        simp only [Exec.ok_bind]
        obtain ⟨found, hfound⟩ := hvisit attrType ((attrs.drop 4).take (4 + attrLen.toNat - 4))
        rw [hfound]
        cases found with
        | some found => exact ⟨found, rfl⟩
        | none =>
          obtain ⟨hrest, hslice⟩ := slice_ok (ε := ε) attrs
            (min_le_right (nextMultipleOf4 (4 + attrLen.toNat)) attrs.length) le_rfl
          simp only [Exec.ok_bind, hslice]
          have hge := nextMultipleOf4_ge (4 + attrLen.toNat)
          refine ih _ ?_ _ rfl
          rw [hrest]
          omega

/-! ## Encoded attributes -/

/-- An attribute, with the bytes that fill it up to the next boundary. -/
structure Attribute where
  attrType : UInt16
  value : Bytes
  padding : Bytes
  deriving DecidableEq, Repr

namespace Attribute

/-- How many bytes are missing to the next 4-byte boundary. -/
def gap (a : Attribute) : ℕ := nextMultipleOf4 a.value.length - a.value.length

/-- The bytes of an attribute. -/
def encode (a : Attribute) : Bytes :=
  toBe 2 a.attrType.toNat ++ toBe 2 a.value.length ++ a.value ++ a.padding

end Attribute

/-- The bytes of a list of attributes. -/
def encodeAttributes (attrs : List Attribute) : Bytes := attrs.flatMap Attribute.encode

/-- Every attribute is filled up to the next boundary, only the last one maybe not. -/
def WellPadded : List Attribute → Prop
  | [] => True
  | [last] => last.padding.length ≤ last.gap
  | a :: b :: rest => a.padding.length = a.gap ∧ WellPadded (b :: rest)

/-- The attributes are visited one after the other. -/
def visitAttributes (visit : UInt16 → Bytes → Exec ε (Option (Option α))) :
    List Attribute → Exec ε (Option α)
  | [] => return none
  | a :: rest => do
    match ← visit a.attrType a.value with
    | some found => return found
    | none => visitAttributes visit rest

@[simp] theorem encodeAttributes_nil : encodeAttributes [] = [] := rfl

@[simp] theorem encodeAttributes_cons (a : Attribute) (rest : List Attribute) :
    encodeAttributes (a :: rest) = a.encode ++ encodeAttributes rest := rfl

theorem Attribute.encode_length (a : Attribute) :
    a.encode.length = 4 + a.value.length + a.padding.length := by
  simp only [encode, List.length_append, toBe_length]

/-- An attribute that is filled up leads to the next one. -/
theorem walkAttributes_cons (visit : UInt16 → Bytes → Exec ε (Option (Option α))) (a : Attribute)
    {tail : Bytes} (hlen : a.value.length < 2 ^ 16)
    (hpad : a.padding.length = a.gap ∨ a.padding.length ≤ a.gap ∧ tail = []) :
    walkAttributes visit (a.encode ++ tail) = (do
      match ← visit a.attrType a.value with
      | some found => return found
      | none => walkAttributes visit tail) := by
  have hheader : attrHeaderLen = 4 := rfl
  have htotal : (a.encode ++ tail).length = 4 + a.value.length + a.padding.length +
      tail.length := by
    rw [List.length_append, a.encode_length]
  obtain ⟨n, hn⟩ : ∃ n : UInt16, n.toNat = a.value.length :=
    ⟨UInt16.ofNat a.value.length, by rw [UInt16.toNat_ofNat']; exact Nat.mod_eq_of_lt hlen⟩
  have hbytes : a.encode ++ tail =
      toBe 2 a.attrType.toNat ++ toBe 2 n.toNat ++ a.value ++ (a.padding ++ tail) := by
    simp [Attribute.encode, hn]
  -- the four parts that the walk reads
  have htype : (u16At (a.encode ++ tail) 0 : Exec ε UInt16) = .ok a.attrType := by
    have h := u16At_toBe (ε := ε) [] (toBe 2 n.toNat ++ a.value ++ (a.padding ++ tail)) a.attrType
      (i := 0) rfl
    simpa [hbytes] using h
  have hfield : (u16At (a.encode ++ tail) 2 : Exec ε UInt16) = .ok n := by
    have h := u16At_toBe (ε := ε) (toBe 2 a.attrType.toNat) (a.value ++ (a.padding ++ tail)) n
      (i := 2) (toBe_length ..).symm
    simpa [hbytes] using h
  obtain ⟨_, hvalue⟩ := slice_middle (ε := ε) (toBe 2 a.attrType.toNat ++ toBe 2 n.toNat)
    a.value (a.padding ++ tail) 4 (4 + n.toNat) (by simp) (by simp [hn])
  rw [← hbytes] at hvalue
  have hskip : min (nextMultipleOf4 (4 + n.toNat)) (a.encode ++ tail).length = a.encode.length := by
    rw [htotal, a.encode_length, hn]
    rcases hpad with hpad | ⟨hpad, rfl⟩
    · simp only [Attribute.gap, nextMultipleOf4] at *
      omega
    · simp only [Attribute.gap, nextMultipleOf4, List.length_nil] at *
      omega
  obtain ⟨_, hrest⟩ := slice_middle (ε := ε) a.encode tail []
    (min (nextMultipleOf4 (4 + n.toNat)) (a.encode ++ tail).length) (a.encode ++ tail).length hskip
    (by simp)
  rw [List.append_nil] at hrest
  rw [walkAttributes, dif_neg (by rw [htotal]; omega), htype]
  simp only [Exec.ok_bind, hfield]
  rw [if_neg (by rw [htotal, hn]; omega), hvalue, Exec.ok_bind, hrest]
  rfl

/-- A walk over an encoded list visits the list. -/
theorem walkAttributes_encode (visit : UInt16 → Bytes → Exec ε (Option (Option α)))
    {attrs : List Attribute} (hpad : WellPadded attrs)
    (hfit : (encodeAttributes attrs).length < 2 ^ 16) :
    walkAttributes visit (encodeAttributes attrs) = visitAttributes visit attrs := by
  induction attrs with
  | nil =>
    rw [walkAttributes]
    rfl
  | cons a rest ih =>
    rw [encodeAttributes_cons, List.length_append, a.encode_length] at hfit
    have hrest : WellPadded rest ∧
        (a.padding.length = a.gap ∨ a.padding.length ≤ a.gap ∧ encodeAttributes rest = []) := by
      cases rest with
      | nil => exact ⟨trivial, .inr ⟨hpad, rfl⟩⟩
      | cons b rest => exact ⟨hpad.2, .inl hpad.1⟩
    rw [encodeAttributes_cons, walkAttributes_cons visit a (by omega) hrest.2,
      ih hrest.1 (by omega)]
    rfl

end IrohExperiment.Stun

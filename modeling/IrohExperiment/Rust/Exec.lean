/-
# Rust computations

The result of running a piece of Rust: it returns a value, returns an error, or
panics.  Byte strings, indexing and slicing with the checks that Rust makes, and
integers in network byte order.

`Exec` keeps panics apart from errors, so that `Returns` can say that a function does not
panic.  `index` and `slice` make the checks of the source explicit; `u16At_toBe` and
`u32At_toBe` read back what was written in network byte order.
-/
import IrohExperiment.Strings.Hex
import Mathlib.Tactic

namespace IrohExperiment.Rust

/-! ## Results -/

/-- Why a thread panics. -/
inductive Panic where
  | indexOutOfBounds (index length : ℕ)
  | sliceOutOfBounds (start stop length : ℕ)
  | unwrapped
  | overflow
  deriving DecidableEq, Repr

/-- What running an expression of type `Result<α, ε>` comes to. -/
inductive Exec (ε α : Type) where
  | ok (value : α)
  | err (error : ε)
  | panic (cause : Panic)
  deriving DecidableEq, Repr

variable {ε α β : Type}

namespace Exec

/-- Goes on with the value, if there is one. -/
def bind (x : Exec ε α) (f : α → Exec ε β) : Exec ε β :=
  match x with
  | .ok a => f a
  | .err e => .err e
  | .panic p => .panic p

instance : Monad (Exec ε) where
  pure := .ok
  bind := bind

@[simp] theorem pure_eq (a : α) : (pure a : Exec ε α) = .ok a := rfl

@[simp] theorem ok_bind (a : α) (f : α → Exec ε β) : (Exec.ok a >>= f) = f a := rfl

@[simp] theorem err_bind (e : ε) (f : α → Exec ε β) : (Exec.err e >>= f) = .err e := rfl

@[simp] theorem panic_bind (p : Panic) (f : α → Exec ε β) : (Exec.panic p >>= f) = .panic p := rfl

/-- The computation returns, with a value or with an error. -/
def Returns : Exec ε α → Prop
  | .panic _ => False
  | _ => True

/-- The computation returns a value. -/
def isOk : Exec ε α → Bool
  | .ok _ => true
  | _ => false

instance (x : Exec ε α) : Decidable x.Returns := by
  unfold Returns
  split <;> infer_instance

@[simp] theorem returns_ok (a : α) : (Exec.ok a : Exec ε α).Returns := trivial

@[simp] theorem returns_err (e : ε) : (Exec.err e : Exec ε α).Returns := trivial

@[simp] theorem not_returns_panic (p : Panic) : ¬ (Exec.panic p : Exec ε α).Returns := id

/-- Nothing is returned but by returning from every part. -/
theorem bind_eq_ok {x : Exec ε α} {f : α → Exec ε β} {b : β} :
    (x >>= f) = .ok b ↔ ∃ a, x = .ok a ∧ f a = .ok b := by
  cases x with
  | ok a => simp
  | err e => simp
  | panic p => simp

/-- What returns in every part returns. -/
theorem returns_bind {x : Exec ε α} {f : α → Exec ε β} (hx : x.Returns) (hf : ∀ a, (f a).Returns) :
    (x >>= f).Returns := by
  cases x with
  | ok a => exact hf a
  | err e => exact returns_err e
  | panic p => exact hx

/-- What returns, but no value, returns an error. -/
theorem eq_err {x : Exec ε α} (hreturns : x.Returns) (hok : ∀ a, x ≠ .ok a) : ∃ e, x = .err e := by
  cases x with
  | ok a => exact absurd rfl (hok a)
  | err e => exact ⟨e, rfl⟩
  | panic p => exact absurd hreturns (not_returns_panic p)

end Exec

/-- `anyhow::ensure!`. -/
def ensure (c : Prop) [Decidable c] (e : ε) : Exec ε Unit := if c then .ok () else .err e

@[simp] theorem ensure_pos {c : Prop} [Decidable c] (h : c) (e : ε) : ensure c e = .ok () :=
  if_pos h

@[simp] theorem ensure_neg {c : Prop} [Decidable c] (h : ¬ c) (e : ε) : ensure c e = .err e :=
  if_neg h

/-- `ensure!` passes exactly if its condition holds. -/
theorem ensure_eq_ok {c : Prop} [Decidable c] {e : ε} {u : Unit} : ensure c e = .ok u ↔ c := by
  unfold ensure
  split_ifs with h <;> simp [h]

/-- `ensure!` never panics. -/
theorem ensure_returns (c : Prop) [Decidable c] (e : ε) : (ensure c e).Returns := by
  unfold ensure
  split_ifs
  · exact Exec.returns_ok ()
  · exact Exec.returns_err e

/-- `anyhow::Context` on an option. -/
def okOr (x : Option α) (e : ε) : Exec ε α :=
  match x with
  | some a => .ok a
  | none => .err e

@[simp] theorem okOr_some (a : α) (e : ε) : okOr (some a) e = .ok a := rfl

@[simp] theorem okOr_none (e : ε) : okOr (none : Option α) e = .err e := rfl

/-- `ok_or` never panics. -/
theorem okOr_returns (x : Option α) (e : ε) : (okOr x e).Returns := by
  cases x with
  | none => exact Exec.returns_err e
  | some a => exact Exec.returns_ok a

/-- `ok_or` gives what there is. -/
theorem okOr_eq_ok {x : Option α} {e : ε} {a : α} : okOr x e = .ok a ↔ x = some a := by
  cases x <;> simp [okOr]

/-! ## Byte strings -/

/-- `bytes[i]`. -/
def index (bytes : Bytes) (i : ℕ) : Exec ε UInt8 :=
  match bytes[i]? with
  | some byte => .ok byte
  | none => .panic (.indexOutOfBounds i bytes.length)

/-- `&bytes[start..stop]`. -/
def slice (bytes : Bytes) (start stop : ℕ) :
    Exec ε { part : Bytes // part.length = stop - start } :=
  if h : start ≤ stop ∧ stop ≤ bytes.length then
    .ok ⟨(bytes.drop start).take (stop - start),
      by simp only [List.length_take, List.length_drop]; omega⟩
  else
    .panic (.sliceOutOfBounds start stop bytes.length)

/-- An index inside the buffer gives its byte. -/
theorem index_ok {bytes : Bytes} {i : ℕ} (h : i < bytes.length) :
    (index bytes i : Exec ε UInt8) = .ok bytes[i] := by
  unfold index
  rw [List.getElem?_eq_getElem h]

@[simp] theorem index_cons_zero (byte : UInt8) (rest : Bytes) :
    (index (byte :: rest) 0 : Exec ε UInt8) = .ok byte := rfl

@[simp] theorem index_cons_succ (byte : UInt8) (rest : Bytes) (i : ℕ) (h : i < rest.length) :
    (index (byte :: rest) (i + 1) : Exec ε UInt8) = index rest i := by
  rw [index_ok h, index_ok (Nat.succ_lt_succ h)]
  rfl

/-- A range inside the buffer gives its bytes. -/
theorem slice_ok (bytes : Bytes) {start stop : ℕ} (h : start ≤ stop) (h' : stop ≤ bytes.length) :
    ∃ hlen, (slice bytes start stop : Exec ε _) =
      .ok ⟨(bytes.drop start).take (stop - start), hlen⟩ :=
  ⟨_, dif_pos ⟨h, h'⟩⟩

/-- A range that is not inside the buffer panics. -/
theorem slice_panic {bytes : Bytes} {start stop : ℕ} (h : ¬ (start ≤ stop ∧ stop ≤ bytes.length)) :
    (slice bytes start stop : Exec ε _) = .panic (.sliceOutOfBounds start stop bytes.length) :=
  dif_neg h

/-- A slice that starts behind a prefix and stops before a suffix. -/
theorem slice_middle (front middle back : Bytes) (start stop : ℕ) (hstart : start = front.length)
    (hstop : stop = front.length + middle.length) :
    ∃ hlen, (slice (front ++ middle ++ back) start stop : Exec ε _) = .ok ⟨middle, hlen⟩ := by
  subst hstart hstop
  refine ⟨by omega, ?_⟩
  unfold slice
  rw [dif_pos (by simp only [List.length_append]; omega)]
  congr 2
  rw [List.append_assoc, List.drop_left, Nat.add_sub_cancel_left, List.take_left]

/-! ## Network byte order -/

/-- The number that a byte string spells, the most significant byte first. -/
def beNat (bytes : Bytes) : ℕ := bytes.foldl (fun n byte => 256 * n + byte.toNat) 0

/-- The last `k` bytes of a number, the most significant one first. -/
def toBe : ℕ → ℕ → Bytes
  | 0, _ => []
  | k + 1, n => toBe k (n / 256) ++ [UInt8.ofNat n]

@[simp] theorem toBe_length (k n : ℕ) : (toBe k n).length = k := by
  induction k generalizing n with
  | zero => rfl
  | succ k ih => simp [toBe, ih]

@[simp] theorem beNat_nil : beNat [] = 0 := rfl

/-- The last byte is the lowest. -/
theorem beNat_concat (bytes : Bytes) (byte : UInt8) :
    beNat (bytes ++ [byte]) = 256 * beNat bytes + byte.toNat := by
  unfold beNat
  rw [List.foldl_append]
  rfl

/-- Of a number that is written in `k` bytes and read again, `k` bytes are left. -/
theorem beNat_toBe (k n : ℕ) : beNat (toBe k n) = n % 256 ^ k := by
  induction k generalizing n with
  | zero => simp [toBe, Nat.mod_one]
  | succ k ih =>
    have hbyte : (UInt8.ofNat n).toNat = n % 256 := by simp
    rw [toBe, beNat_concat, ih, hbyte, Nat.pow_succ', Nat.mod_mul]
    omega

/-- A number of `k` bytes is read back. -/
theorem beNat_toBe_of_lt {k n : ℕ} (h : n < 256 ^ k) : beNat (toBe k n) = n := by
  rw [beNat_toBe, Nat.mod_eq_of_lt h]

/-- `k` bytes are a number below `256 ^ k`. -/
theorem beNat_lt (bytes : Bytes) : beNat bytes < 256 ^ bytes.length := by
  induction bytes using List.reverseRecOn with
  | nil => simp
  | append_singleton bytes byte ih =>
    have hbyte := byte.toNat_lt
    rw [beNat_concat, List.length_append, List.length_singleton, Nat.pow_succ]
    omega

/-- A byte string is the bytes of its number. -/
theorem toBe_beNat (bytes : Bytes) : toBe bytes.length (beNat bytes) = bytes := by
  induction bytes using List.reverseRecOn with
  | nil => rfl
  | append_singleton bytes byte ih =>
    have hbyte := byte.toNat_lt
    have hquot : (256 * beNat bytes + byte.toNat) / 256 = beNat bytes := by omega
    have hlast : UInt8.ofNat (256 * beNat bytes + byte.toNat) = byte := by
      apply UInt8.toNat_inj.mp
      simp only [UInt8.toNat_ofNat']
      omega
    rw [List.length_append, List.length_singleton, toBe, beNat_concat, hquot, hlast, ih]

/-- `u16::from_be_bytes`. -/
def u16FromBe (a b : UInt8) : UInt16 := UInt16.ofNat (beNat [a, b])

/-- `u32::from_be_bytes`. -/
def u32FromBe (a b c d : UInt8) : UInt32 := UInt32.ofNat (beNat [a, b, c, d])

/-- Two bytes, the high one first. -/
theorem u16FromBe_toNat (a b : UInt8) : (u16FromBe a b).toNat = beNat [a, b] := by
  have h : beNat [a, b] < 256 ^ 2 := beNat_lt _
  unfold u16FromBe
  rw [UInt16.toNat_ofNat']
  exact Nat.mod_eq_of_lt h

/-- Four bytes, the high one first. -/
theorem u32FromBe_toNat (a b c d : UInt8) : (u32FromBe a b c d).toNat = beNat [a, b, c, d] := by
  have h : beNat [a, b, c, d] < 256 ^ 4 := beNat_lt _
  unfold u32FromBe
  rw [UInt32.toNat_ofNat']
  exact Nat.mod_eq_of_lt h

/-- `u16::from_be_bytes([bytes[i], bytes[i + 1]])`. -/
def u16At (bytes : Bytes) (i : ℕ) : Exec ε UInt16 := do
  return u16FromBe (← index bytes i) (← index bytes (i + 1))

/-- `u32::from_be_bytes([bytes[i], .., bytes[i + 3]])`. -/
def u32At (bytes : Bytes) (i : ℕ) : Exec ε UInt32 := do
  return u32FromBe (← index bytes i) (← index bytes (i + 1)) (← index bytes (i + 2))
    (← index bytes (i + 3))

/-- An index behind a known front looks into what follows it. -/
theorem index_append (front back : Bytes) (i : ℕ) :
    (index (front ++ back) (front.length + i) : Exec ε UInt8) =
      match back[i]? with
      | some byte => .ok byte
      | none => .panic (.indexOutOfBounds (front.length + i) (front ++ back).length) := by
  unfold index
  rw [List.getElem?_append_right (Nat.le_add_right _ _), Nat.add_sub_cancel_left]

/-- Writing and reading a `u16` gives it back. -/
theorem u16FromBe_toBe (x : UInt16) :
    u16FromBe (UInt8.ofNat (x.toNat / 256)) (UInt8.ofNat x.toNat) = x := by
  apply UInt16.toNat_inj.mp
  rw [u16FromBe_toNat]
  exact beNat_toBe_of_lt (k := 2) x.toNat_lt

/-- Writing and reading a `u32` gives it back. -/
theorem u32FromBe_toBe (x : UInt32) :
    u32FromBe (UInt8.ofNat (x.toNat / 256 / 256 / 256)) (UInt8.ofNat (x.toNat / 256 / 256))
      (UInt8.ofNat (x.toNat / 256)) (UInt8.ofNat x.toNat) = x := by
  apply UInt32.toNat_inj.mp
  rw [u32FromBe_toNat]
  exact beNat_toBe_of_lt (k := 4) x.toNat_lt

/-- Reading and writing two bytes gives them back. -/
theorem toBe_u16FromBe (a b : UInt8) : toBe 2 (u16FromBe a b).toNat = [a, b] := by
  rw [u16FromBe_toNat]
  exact toBe_beNat [a, b]

/-- Reading and writing four bytes gives them back. -/
theorem toBe_u32FromBe (a b c d : UInt8) : toBe 4 (u32FromBe a b c d).toNat = [a, b, c, d] := by
  rw [u32FromBe_toNat]
  exact toBe_beNat [a, b, c, d]

/-- The four bytes of a `u32`. -/
theorem exists_toBe_u32 (x : UInt32) :
    ∃ a b c d, toBe 4 x.toNat = [a, b, c, d] ∧ u32FromBe a b c d = x :=
  ⟨_, _, _, _, rfl, u32FromBe_toBe x⟩

/-- A `u16` in network byte order is read back. -/
theorem u16At_toBe (front back : Bytes) (x : UInt16) {i : ℕ} (hi : i = front.length) :
    (u16At (front ++ (toBe 2 x.toNat ++ back)) i : Exec ε UInt16) = .ok x := by
  subst hi
  have h₀ := index_append (ε := ε) front (toBe 2 x.toNat ++ back) 0
  have h₁ := index_append (ε := ε) front (toBe 2 x.toNat ++ back) 1
  unfold u16At
  rw [h₁, ← Nat.add_zero front.length, h₀]
  exact congrArg Exec.ok (u16FromBe_toBe x)

/-- A `u32` in network byte order is read back. -/
theorem u32At_toBe (front back : Bytes) (x : UInt32) {i : ℕ} (hi : i = front.length) :
    (u32At (front ++ (toBe 4 x.toNat ++ back)) i : Exec ε UInt32) = .ok x := by
  subst hi
  have h₀ := index_append (ε := ε) front (toBe 4 x.toNat ++ back) 0
  have h₁ := index_append (ε := ε) front (toBe 4 x.toNat ++ back) 1
  have h₂ := index_append (ε := ε) front (toBe 4 x.toNat ++ back) 2
  have h₃ := index_append (ε := ε) front (toBe 4 x.toNat ++ back) 3
  unfold u32At
  rw [h₁, h₂, h₃, ← Nat.add_zero front.length, h₀]
  exact congrArg Exec.ok (u32FromBe_toBe x)

end IrohExperiment.Rust

/-
# Time (`std::time`)

Unsigned arithmetic of 64 bits, with the overflow checks of either build profile, the
durations and the system clock of `std::time`, and milliseconds.

`addU64` goes by the build profile: an overflow panics (`addU64_panic`) or wraps around
(`addU64_wrap`).  `asU64` is the cast that drops the upper bits.  Durations are compared by
seconds and nanoseconds, and `unixMillis` is the clock as the programs read it.
-/
import IrohExperiment.Rust.Exec

namespace IrohExperiment.Rust

variable {ε : Type}

/-! ## Arithmetic of 64 bits -/

/-- `a + b`: what an overflow does depends on whether the build checks for it. -/
def addU64 (checks : Bool) (a b : UInt64) : Exec ε UInt64 :=
  if checks ∧ 2 ^ 64 ≤ a.toNat + b.toNat then .panic .overflow else .ok (a + b)

/-- `u64::saturating_add` -/
def saturatingAdd (a b : UInt64) : UInt64 :=
  if a.toNat + b.toNat < 2 ^ 64 then a + b else UInt64.ofNat (2 ^ 64 - 1)

/-- `u64::saturating_sub` -/
def saturatingSub (a b : UInt64) : UInt64 := if b ≤ a then a - b else 0

/-- `n as u64`, of a wider integer. -/
def asU64 (n : ℕ) : UInt64 := UInt64.ofNat n

theorem addU64_exact (checks : Bool) {a b : UInt64} (h : a.toNat + b.toNat < 2 ^ 64) :
    ∃ c, (addU64 checks a b : Exec ε UInt64) = .ok c ∧ c.toNat = a.toNat + b.toNat := by
  refine ⟨a + b, ?_, ?_⟩
  · unfold addU64
    rw [if_neg (by omega)]
  · rw [UInt64.toNat_add, Nat.mod_eq_of_lt h]

/-- An overflow panics if the build checks for it. -/
theorem addU64_panic {a b : UInt64} (h : 2 ^ 64 ≤ a.toNat + b.toNat) :
    (addU64 true a b : Exec ε UInt64) = .panic .overflow :=
  if_pos ⟨rfl, h⟩

/-- An overflow wraps around if the build does not check for it. -/
theorem addU64_wrap {a b : UInt64} (h : 2 ^ 64 ≤ a.toNat + b.toNat) :
    ∃ c, (addU64 false a b : Exec ε UInt64) = .ok c ∧ c.toNat = a.toNat + b.toNat - 2 ^ 64 := by
  have ha := a.toNat_lt
  have hb := b.toNat_lt
  refine ⟨a + b, rfl, ?_⟩
  rw [UInt64.toNat_add]
  omega

theorem saturatingAdd_toNat (a b : UInt64) :
    (saturatingAdd a b).toNat = min (a.toNat + b.toNat) (2 ^ 64 - 1) := by
  unfold saturatingAdd
  split_ifs with h
  · rw [UInt64.toNat_add, Nat.mod_eq_of_lt h]
    omega
  · rw [UInt64.toNat_ofNat']
    omega

theorem saturatingSub_toNat (a b : UInt64) : (saturatingSub a b).toNat = a.toNat - b.toNat := by
  unfold saturatingSub
  split_ifs with h
  · rw [UInt64.toNat_sub_of_le _ _ h]
  · have hlt : a.toNat < b.toNat := UInt64.lt_iff_toNat_lt.mp (UInt64.not_le.mp h)
    rw [UInt64.toNat_zero]
    omega

theorem min_toNat (a b : UInt64) : (min a b).toNat = min a.toNat b.toNat := by
  show (if a ≤ b then a else b).toNat = min a.toNat b.toNat
  split_ifs with h
  · have hle := UInt64.le_iff_toNat_le.mp h
    omega
  · have hlt := UInt64.lt_iff_toNat_lt.mp (UInt64.not_le.mp h)
    omega

theorem asU64_toNat (n : ℕ) : (asU64 n).toNat = n % 2 ^ 64 := UInt64.toNat_ofNat'

theorem asU64_toNat_of_lt {n : ℕ} (h : n < 2 ^ 64) : (asU64 n).toNat = n := by
  rw [asU64_toNat, Nat.mod_eq_of_lt h]

/-! ## Durations -/

/-- `Duration`: seconds, and nanoseconds below one second. -/
structure Duration where
  secs : UInt64
  nanos : ℕ
  nanos_lt : nanos < 10 ^ 9
  deriving DecidableEq, Repr

namespace Duration

/-- `Duration::ZERO` -/
def zero : Duration := ⟨0, 0, by decide⟩

/-- `Duration::is_zero` -/
def isZero (d : Duration) : Bool := d.secs = 0 ∧ d.nanos = 0

/-- `Duration::as_millis`, a `u128`. -/
def asMillis (d : Duration) : ℕ := d.secs.toNat * 1000 + d.nanos / 10 ^ 6

/-- `Duration::from_millis` -/
def fromMillis (millis : UInt64) : Duration :=
  ⟨millis / 1000, millis.toNat % 1000 * 10 ^ 6, by omega⟩

/-- `Duration::from_secs` -/
def fromSecs (secs : UInt64) : Duration := ⟨secs, 0, by decide⟩

/-- The order of durations. -/
instance : LE Duration := ⟨fun d e => d.secs < e.secs ∨ d.secs = e.secs ∧ d.nanos ≤ e.nanos⟩

instance (d e : Duration) : Decidable (d ≤ e) := inferInstanceAs (Decidable (_ ∨ _))

/-- The milliseconds of a duration fit into a `u128`. -/
theorem asMillis_lt (d : Duration) : d.asMillis < 2 ^ 128 := by
  have h := d.secs.toNat_lt
  have hnanos := d.nanos_lt
  unfold asMillis
  omega

theorem asMillis_mono {d e : Duration} (h : d ≤ e) : d.asMillis ≤ e.asMillis := by
  have hnanos := d.nanos_lt
  unfold asMillis
  rcases h with hsecs | ⟨hsecs, hle⟩
  · have hlt := UInt64.lt_iff_toNat_lt.mp hsecs
    omega
  · rw [hsecs]
    omega

theorem asMillis_fromMillis (millis : UInt64) : (fromMillis millis).asMillis = millis.toNat := by
  unfold asMillis fromMillis
  rw [UInt64.toNat_div]
  show millis.toNat / 1000 * 1000 + millis.toNat % 1000 * 10 ^ 6 / 10 ^ 6 = millis.toNat
  omega

end Duration

/-! ## The system clock -/

/-- `SystemTime`: seconds since the Unix epoch, maybe negative, and nanoseconds. -/
structure SystemTime where
  secs : ℤ
  nanos : ℕ
  nanos_lt : nanos < 10 ^ 9
  secs_lt : secs < 2 ^ 63
  deriving DecidableEq, Repr

namespace SystemTime

/-- `SystemTime::duration_since(UNIX_EPOCH)`, which has no result before the epoch. -/
def sinceEpoch (time : SystemTime) : Option Duration :=
  if 0 ≤ time.secs then some ⟨UInt64.ofNat time.secs.toNat, time.nanos, time.nanos_lt⟩ else none

/-- The milliseconds since the epoch; before it there are none. -/
def millis (time : SystemTime) : ℕ := (time.sinceEpoch.getD .zero).asMillis

end SystemTime

/-- `unix_millis`, when the clock shows this time. -/
def unixMillis (clock : SystemTime) : UInt64 := asU64 (clock.sinceEpoch.getD .zero).asMillis

end IrohExperiment.Rust

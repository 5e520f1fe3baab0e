/-
# IPv4 addresses in text (`worker/public/peer-proof.js`)

Which texts the filter of public addresses takes for an address, the 32-bit number that
such a text denotes, and the blocks of `excludedV4` octet by octet.

`publicV4` reads four decimal fields, with leading zeros and all, and looks the number up in
`excludedV4`.  `publicV4_iff` says which texts pass, `numeric_octets` which number they
denote, and `excluded_octets` what the blocks are octet by octet.
-/
import IrohExperiment.Peer.Evidence

namespace IrohExperiment.Peer

/-! ## Texts -/

/-- A decimal field of an address: one to three digits, at most 255. -/
structure IsField (field : Text) : Prop where
  length_pos : 1 ≤ field.length
  length_le : field.length ≤ 3
  digits : ∀ c ∈ field, isDigit c = true
  value_le : decimal field ≤ 255

/-- The text is four decimal fields, with dots between them. -/
def FourFields (address : String) (fields : List Text) : Prop :=
  address.toList = ['.'].intercalate fields ∧ fields.length = 4 ∧ ∀ field ∈ fields, IsField field

theorem isPart_iff {field : Text} :
    isPart field = true ↔ (1 ≤ field.length ∧ field.length ≤ 3) ∧
      ∀ c ∈ field, isDigit c = true := by
  rw [isPart, Bool.and_eq_true, decide_eq_true_iff, List.all_eq_true]

theorem IsField.not_dot {field : Text} (h : IsField field) : '.' ∉ field := by
  intro hdot
  have hdigit := h.digits _ hdot
  revert hdigit
  decide

/-- The fields are what the text is split into. -/
theorem FourFields.splitOn {address : String} {fields : List Text} (h : FourFields address fields) :
    address.toList.splitOn '.' = fields := by
  obtain ⟨htext, hlength, hfields⟩ := h
  rw [htext]
  apply List.splitOn_intercalate
  · exact fun field hfield => (hfields field hfield).not_dot
  · intro hnil
    rw [hnil] at hlength
    cases hlength

/-! ## Numbers -/

/-- `parts.reduce((value,part)=>value*256+part,0)` -/
def numeric (parts : List ℕ) : ℕ := parts.foldl (fun value part => value * 256 + part) 0

/-- The 32-bit number that a text of four decimal fields denotes. -/
def denoted (address : String) : ℕ := numeric ((address.toList.splitOn '.').map decimal)

theorem FourFields.denoted {address : String} {fields : List Text} (h : FourFields address fields) :
    denoted address = numeric (fields.map decimal) := by
  unfold Peer.denoted
  rw [h.splitOn]

/-- The address is in one of the excluded blocks. -/
def excluded (number : ℕ) : Bool :=
  excludedV4.any fun block => number / 2 ^ (32 - block.2) == block.1 / 2 ^ (32 - block.2)

/-- A public address is the text of four decimal fields and in none of the blocks. -/
theorem publicV4_iff {address : String} :
    publicV4 (some address) = true ↔
      (∃ fields, FourFields address fields) ∧ excluded (denoted address) = false := by
  simp only [publicV4]
  constructor
  · intro h
    split_ifs at h with hgroups hlarge
    rw [not_or, not_not, Bool.not_eq_true', Bool.not_eq_false] at hgroups
    refine ⟨⟨address.toList.splitOn '.', (List.intercalate_splitOn '.').symm, hgroups.1, ?_⟩, ?_⟩
    · intro field hfield
      obtain ⟨hlength, hdigits⟩ := isPart_iff.mp (List.all_eq_true.mp hgroups.2 field hfield)
      refine ⟨hlength.1, hlength.2, hdigits, ?_⟩
      by_contra hover
      refine hlarge (List.any_eq_true.mpr ⟨decimal field, List.mem_map_of_mem hfield, ?_⟩)
      exact decide_eq_true (by omega)
    · simpa [excluded, denoted, numeric] using h
  · rintro ⟨⟨fields, hfields⟩, hexcluded⟩
    have hsplit := hfields.splitOn
    have hparts : (address.toList.splitOn '.').all isPart = true := by
      rw [hsplit, List.all_eq_true]
      intro field hfield
      obtain ⟨hpos, hle, hdigits, -⟩ := hfields.2.2 field hfield
      exact isPart_iff.mpr ⟨⟨hpos, hle⟩, hdigits⟩
    have hsmall : ((address.toList.splitOn '.').map decimal).any (255 < ·) = false := by
      rw [hsplit, List.any_eq_false]
      intro part hpart
      obtain ⟨field, hfield, rfl⟩ := List.mem_map.mp hpart
      have hle := (hfields.2.2 field hfield).value_le
      simp only [decide_eq_true_eq]
      omega
    have hlength : (address.toList.splitOn '.').length = 4 := by rw [hsplit, hfields.2.1]
    rw [if_neg (by simp [hlength, hparts]), hsmall, if_neg (by decide)]
    simpa [excluded, denoted, numeric] using hexcluded

/-! ## Blocks -/

/-- The blocks, by the octets of the address. -/
def ExcludedOctets (a b c : ℕ) : Prop :=
  a = 0 ∨ a = 10 ∨ a = 127 ∨ 224 ≤ a ∨ (a = 100 ∧ 64 ≤ b ∧ b ≤ 127) ∨ (a = 169 ∧ b = 254) ∨
    (a = 172 ∧ 16 ≤ b ∧ b ≤ 31) ∨ (a = 192 ∧ b = 168) ∨ (a = 192 ∧ b = 0 ∧ c = 0) ∨
    (a = 192 ∧ b = 0 ∧ c = 2) ∨ (a = 198 ∧ 18 ≤ b ∧ b ≤ 19) ∨ (a = 198 ∧ b = 51 ∧ c = 100) ∨
    (a = 203 ∧ b = 0 ∧ c = 113)

theorem numeric_octets (a b c d : ℕ) :
    numeric [a, b, c, d] = ((a * 256 + b) * 256 + c) * 256 + d := by
  simp [numeric]

/-- Each block says something about the first one, two or three octets. -/
theorem excluded_octets {a b c d : ℕ} (ha : a ≤ 255) (hb : b ≤ 255) (hc : c ≤ 255) (hd : d ≤ 255) :
    excluded (numeric [a, b, c, d]) = true ↔ ExcludedOctets a b c := by
  rw [numeric_octets]
  simp only [excluded, excludedV4, List.any_cons, List.any_nil, Bool.or_false,
    Bool.or_eq_true, beq_iff_eq, Nat.reduceSub, Nat.reducePow, Nat.reduceDiv]
  unfold ExcludedOctets
  refine or_congr ?_ (or_congr ?_ (or_congr ?_ (or_congr ?_ (or_congr ?_ (or_congr ?_ (or_congr ?_
    (or_congr ?_ (or_congr ?_ (or_congr ?_ (or_congr ?_ (or_congr ?_ ?_))))))))))) <;> omega

end IrohExperiment.Peer

/-
# Splitting and parsing text (`str` and `std::net`)

`split_once` and `rsplit_once`, `u16::from_str`, and which texts `Ipv6Addr::from_str`
accepts.

`splitOnce_eq_some` and `rsplitOnce_eq_some` characterise the two ways to split, and the
positions of bytes are those of whole characters (`takeBytes_append`), so that a slice of a
text is a text.
-/
import IrohExperiment.Rust.Text

namespace IrohExperiment.Rust

/-! ## Splitting -/

/-- `str::split_once`. -/
def splitOnce (sep : Char) : Text → Option (Text × Text)
  | [] => none
  | c :: rest =>
      if c = sep then some ([], rest) else (splitOnce sep rest).map fun s => (c :: s.1, s.2)

/-- `str::rsplit_once`. -/
def rsplitOnce (sep : Char) (text : Text) : Option (Text × Text) :=
  (splitOnce sep text.reverse).map fun s => (s.2.reverse, s.1.reverse)

/-- `str::len`: how many bytes the text has. -/
def utf8Len (text : Text) : ℕ := (utf8 text).length

/-- The first part has no separator. -/
theorem splitOnce_of_not_mem {sep : Char} {first : Text} (h : sep ∉ first) (second : Text) :
    splitOnce sep (first ++ sep :: second) = some (first, second) := by
  induction first with
  | nil => simp [splitOnce]
  | cons c first ih =>
    rw [List.mem_cons, not_or] at h
    rw [List.cons_append, splitOnce, if_neg (Ne.symm h.1), ih h.2]
    rfl

theorem splitOnce_eq_some {sep : Char} {text first second : Text}
    (h : splitOnce sep text = some (first, second)) :
    text = first ++ sep :: second ∧ sep ∉ first := by
  induction text generalizing first with
  | nil => cases h
  | cons c rest ih =>
    rw [splitOnce] at h
    split_ifs at h with hc
    · obtain ⟨rfl, rfl⟩ := Prod.mk.inj (Option.some.inj h)
      exact ⟨by rw [hc]; rfl, List.not_mem_nil⟩
    · obtain ⟨⟨front, back⟩, hsplit, heq⟩ := Option.map_eq_some_iff.mp h
      obtain ⟨rfl, rfl⟩ := Prod.mk.inj heq
      obtain ⟨hrest, hnot⟩ := ih hsplit
      refine ⟨by rw [hrest]; rfl, ?_⟩
      rw [List.mem_cons, not_or]
      exact ⟨Ne.symm hc, hnot⟩

/-- The last part has no separator. -/
theorem rsplitOnce_of_not_mem {sep : Char} {second : Text} (h : sep ∉ second) (first : Text) :
    rsplitOnce sep (first ++ sep :: second) = some (first, second) := by
  have hreverse : (first ++ sep :: second).reverse = second.reverse ++ sep :: first.reverse :=
    by simp
  unfold rsplitOnce
  rw [hreverse, splitOnce_of_not_mem (by simpa using h)]
  simp

theorem rsplitOnce_eq_some {sep : Char} {text first second : Text}
    (h : rsplitOnce sep text = some (first, second)) :
    text = first ++ sep :: second ∧ sep ∉ second := by
  obtain ⟨⟨back, front⟩, hsplit, heq⟩ := Option.map_eq_some_iff.mp h
  obtain ⟨rfl, rfl⟩ := Prod.mk.inj heq
  obtain ⟨hreverse, hnot⟩ := splitOnce_eq_some hsplit
  have htext := congrArg List.reverse hreverse
  refine ⟨by simpa using htext, by simpa using hnot⟩

/-! ## Byte positions -/

/-- `str::rfind`: the byte at which the last such character is. -/
def rfind (c : Char) (text : Text) : Option ℕ := (rsplitOnce c text).map fun s => utf8Len s.1

/-- The characters of the first `stop` bytes, if the last of these bytes ends a character. -/
def takeBytes : Text → ℕ → Option Text
  | _, 0 => some []
  | [], _ + 1 => none
  | c :: text, stop + 1 =>
    if c.utf8Size ≤ stop + 1 then (takeBytes text (stop + 1 - c.utf8Size)).map (c :: ·) else none

/-- `&text[..stop]` -/
def sliceTo {ε : Type} (text : Text) (stop : ℕ) : Exec ε Text :=
  match takeBytes text stop with
  | some front => .ok front
  | none => .panic (.sliceOutOfBounds 0 stop (utf8Len text))

/-- `a - b`, of `usize` -/
def subUsize {ε : Type} (a b : ℕ) : Exec ε ℕ := if b ≤ a then .ok (a - b) else .panic .overflow

@[simp] theorem utf8Len_nil : utf8Len [] = 0 := rfl

@[simp] theorem utf8Len_cons (c : Char) (text : Text) :
    utf8Len (c :: text) = c.utf8Size + utf8Len text := by
  unfold utf8Len
  rw [utf8_cons, List.length_append, String.length_utf8EncodeChar]

@[simp] theorem utf8Len_append (first second : Text) :
    utf8Len (first ++ second) = utf8Len first + utf8Len second := by
  induction first with
  | nil => simp
  | cons c first ih => rw [List.cons_append, utf8Len_cons, utf8Len_cons, ih, Nat.add_assoc]

/-- The bytes of a front are the front. -/
theorem takeBytes_append (first second : Text) :
    takeBytes (first ++ second) (utf8Len first) = some first := by
  induction first with
  | nil => cases second <;> rfl
  | cons c first ih =>
    have hpos := c.utf8Size_pos
    obtain ⟨stop, hstop⟩ : ∃ stop, utf8Len (c :: first) = stop + 1 :=
      ⟨c.utf8Size + utf8Len first - 1, by rw [utf8Len_cons]; omega⟩
    have hrest : stop + 1 - c.utf8Size = utf8Len first := by
      rw [← hstop, utf8Len_cons]
      omega
    have hle : c.utf8Size ≤ stop + 1 := by
      rw [← hstop, utf8Len_cons]
      omega
    rw [hstop, List.cons_append, takeBytes, if_pos hle, hrest, ih]
    rfl

theorem sliceTo_append {ε : Type} (first second : Text) :
    (sliceTo (first ++ second) (utf8Len first) : Exec ε Text) = .ok first := by
  unfold sliceTo
  rw [takeBytes_append]

/-! ## Numbers -/

/-- `char::to_digit`. -/
def toDigit (radix : ℕ) (c : Char) : Option ℕ :=
  let digit :=
    if '0' ≤ c ∧ c ≤ '9' then c.toNat - 48
    else if 'a' ≤ c ∧ c ≤ 'z' then c.toNat - 87
    else if 'A' ≤ c ∧ c ≤ 'Z' then c.toNat - 55
    else radix
  if digit < radix then some digit else none

/-- `u16::from_str`: digits, maybe after a plus sign, and no overflow. -/
def parseU16 (text : Text) : Option UInt16 := do
  let digits := if text.head? = some '+' then text.tail else text
  if digits = [] then none
  let number ← digits.foldlM (fun n c => do
    let n := n * 10 + (← toDigit 10 c)
    if n < 2 ^ 16 then some n else none) 0
  return UInt16.ofNat number

/-! ## IPv6 literals -/

/-- `Parser::read_given_char`. -/
def readChar (c : Char) : Text → Option Text
  | [] => none
  | c' :: rest => if c' = c then some rest else none

/-- The digits that the text begins with. -/
def leadingDigits (radix : ℕ) (text : Text) : Text :=
  text.takeWhile fun c => (toDigit radix c).isSome

/-- `Parser::read_number`: the number, which is below `limit`, and what follows it. -/
def readNumber (radix maxDigits limit : ℕ) (allowZeroPrefix : Bool) (text : Text) :
    Option (ℕ × Text) :=
  let digits := leadingDigits radix text
  let number := digits.foldl (fun n c => n * radix + (toDigit radix c).getD 0) 0
  if digits = [] ∨ maxDigits < digits.length ∨ limit ≤ number then none
  else if !allowZeroPrefix && digits.head? = some '0' && 1 < digits.length then none
  else some (number, text.drop digits.length)

/-- `Parser::read_separator`: before every item but the first one there is a separator. -/
def readSeparator {α : Type} (sep : Char) (i : ℕ) (inner : Text → Option (α × Text)) (text : Text) :
    Option (α × Text) :=
  if 0 < i then readChar sep text >>= inner else inner text

/-- The groups of `Parser::read_ipv4_addr`. -/
def readIpv4Groups : ℕ → ℕ → Text → Option (List ℕ × Text)
  | 0, _, text => some ([], text)
  | left + 1, i, text => do
    let (group, text) ← readSeparator '.' i (readNumber 10 3 256 false) text
    let (groups, text) ← readIpv4Groups left (i + 1) text
    return (group :: groups, text)

/-- `Parser::read_ipv4_addr`. -/
def readIpv4Addr (text : Text) : Option (List ℕ × Text) := readIpv4Groups 4 0 text

/-- `read_groups` of `Parser::read_ipv6_addr`: how many of the `left` groups from number
`i` on there are, whether they end in an IPv4 address, and what follows. -/
def readGroups : ℕ → ℕ → Text → ℕ × Bool × Text
  | 0, i, text => (i, false, text)
  | left + 1, i, text =>
    let group :=
      match readSeparator ':' i (readNumber 16 4 65536 true) text with
      | some (_, rest) => readGroups left (i + 1) rest
      | none => (i, false, text)
    if 0 < left then
      match readSeparator ':' i readIpv4Addr text with
      | some (_, rest) => (i + 2, true, rest)
      | none => group
    else group

/-- The text is what `Ipv6Addr::from_str` accepts. -/
def isIpv6Literal (text : Text) : Bool :=
  match readGroups 8 0 text with
  | (headSize, headIpv4, rest) =>
    if headSize = 8 then rest = []
    else if headIpv4 then false
    else
      match readChar ':' rest >>= readChar ':' with
      | none => false
      | some rest => (readGroups (8 - (headSize + 1)) 0 rest).2.2 = []

example : isIpv6Literal "2001:db8::1".toList ∧ isIpv6Literal "::ffff:192.0.2.1".toList ∧
    isIpv6Literal "1:2:3:4:5:6:7:8".toList ∧ ¬ isIpv6Literal "1::2::3".toList ∧
    ¬ isIpv6Literal "localhost".toList := by decide

end IrohExperiment.Rust

/-
# Text (`str`, `String`)

Strings of Rust programs as lists of characters, their UTF-8 bytes, the lossy way
back, and trimming.

`fromUtf8_utf8` and `fromUtf8Lossy_utf8` are the ways back: bytes that are the UTF-8 of a
text give this text, lossily or not, and no other bytes are accepted
(`eq_utf8_of_fromUtf8`).
-/
import IrohExperiment.Rust.Exec
import Mathlib.Data.List.DropRight

namespace IrohExperiment.Rust

/-! ## UTF-8 -/

/-- `str::as_bytes`. -/
def utf8 (text : Text) : Bytes := text.flatMap String.utf8EncodeChar

/-- The character that the bytes begin with, if they begin with one. -/
def leadingChar (bytes : Bytes) : Option Char := bytes.toByteArray.utf8DecodeChar? 0

/-- The byte may follow the first byte of a character of three or four bytes. -/
def followsLead (lead second : UInt8) : Bool :=
  if lead = 0xe0 then decide (0xa0 ≤ second ∧ second ≤ 0xbf)
  else if lead = 0xed then decide (0x80 ≤ second ∧ second ≤ 0x9f)
  else if lead = 0xf0 then decide (0x90 ≤ second ∧ second ≤ 0xbf)
  else if lead = 0xf4 then decide (0x80 ≤ second ∧ second ≤ 0x8f)
  else decide (0xe1 ≤ lead ∧ lead ≤ 0xf3 ∧ 0x80 ≤ second ∧ second ≤ 0xbf)

/-- How many bytes one replacement character stands for: the longest part that could
begin a character, at least one byte. -/
def brokenLength : Bytes → ℕ
  | lead :: second :: third :: _ =>
    if followsLead lead second then
      if 0xf0 ≤ lead ∧ 0x80 ≤ third ∧ third ≤ 0xbf then 3 else 2
    else 1
  | [lead, second] => if followsLead lead second then 2 else 1
  | _ => 1

theorem brokenLength_pos (bytes : Bytes) : 0 < brokenLength bytes := by
  unfold brokenLength
  split <;> (try split_ifs) <;> omega

/-- `String::from_utf8_lossy`. -/
def fromUtf8Lossy : Bytes → Text
  | [] => []
  | byte :: rest =>
    match leadingChar (byte :: rest) with
    | some c => c :: fromUtf8Lossy ((byte :: rest).drop c.utf8Size)
    | none => Char.ofNat 0xfffd :: fromUtf8Lossy ((byte :: rest).drop (brokenLength (byte :: rest)))
termination_by bytes => bytes.length
decreasing_by
  · have := c.utf8Size_pos
    simp only [List.length_drop, List.length_cons]
    omega
  · have := brokenLength_pos (byte :: rest)
    simp only [List.length_drop, List.length_cons]
    omega

/-- `String::from_utf8`. -/
def fromUtf8 : Bytes → Option Text
  | [] => some []
  | byte :: rest =>
    match leadingChar (byte :: rest) with
    | some c => (fromUtf8 ((byte :: rest).drop c.utf8Size)).map (c :: ·)
    | none => none
termination_by bytes => bytes.length
decreasing_by
  have := c.utf8Size_pos
  simp only [List.length_drop, List.length_cons]
  omega

@[simp] theorem utf8_nil : utf8 [] = [] := rfl

theorem utf8_cons (c : Char) (text : Text) :
    utf8 (c :: text) = String.utf8EncodeChar c ++ utf8 text := rfl

/-- The bytes of a character begin with it. -/
theorem leadingChar_encode (c : Char) (rest : Bytes) :
    leadingChar (String.utf8EncodeChar c ++ rest) = some c := by
  unfold leadingChar
  rw [List.toByteArray_append]
  exact ByteArray.utf8DecodeChar?_utf8EncodeChar_append

/-- The bytes of a string begin with its first character, and go on with the others. -/
theorem exists_utf8_cons (c : Char) (text : Text) : ∃ byte bytes, utf8 (c :: text) = byte :: bytes ∧
    leadingChar (byte :: bytes) = some c ∧ (byte :: bytes).drop c.utf8Size = utf8 text := by
  have hlead := leadingChar_encode c (utf8 text)
  have hlen : (String.utf8EncodeChar c).length = c.utf8Size := String.length_utf8EncodeChar c
  have hpos := c.utf8Size_pos
  cases hbytes : String.utf8EncodeChar c with
  | nil =>
    rw [hbytes, List.length_nil] at hlen
    omega
  | cons byte bytes =>
    refine ⟨byte, bytes ++ utf8 text, ?_, ?_, ?_⟩
    · rw [utf8_cons, hbytes, List.cons_append]
    · rwa [hbytes, List.cons_append] at hlead
    · rw [← hlen, hbytes, ← List.cons_append, List.drop_left]

/-- A string is recovered from its bytes. -/
theorem fromUtf8Lossy_utf8 (text : Text) : fromUtf8Lossy (utf8 text) = text := by
  induction text with
  | nil => simp [fromUtf8Lossy]
  | cons c text ih =>
    obtain ⟨byte, bytes, hbytes, hlead, hdrop⟩ := exists_utf8_cons c text
    rw [hbytes, fromUtf8Lossy, hlead]
    simp only [hdrop, ih]

/-- Bytes that begin with a character begin with its bytes. -/
theorem eq_of_leadingChar {bytes : Bytes} {c : Char} (h : leadingChar bytes = some c) :
    bytes = String.utf8EncodeChar c ++ bytes.drop c.utf8Size := by
  obtain ⟨rest, hrest⟩ := ByteArray.exists_of_utf8DecodeChar?_eq_some h
  have hlist := congrArg (fun array => array.data.toList) hrest
  rw [List.toList_data_toByteArray, ByteArray.data_append, Array.toList_append,
    List.toList_data_toByteArray] at hlist
  have hlen : (String.utf8EncodeChar c).length = c.utf8Size := String.length_utf8EncodeChar c
  rw [hlist, ← hlen, List.drop_left]

/-- A string is decoded from its bytes. -/
theorem fromUtf8_utf8 (text : Text) : fromUtf8 (utf8 text) = some text := by
  induction text with
  | nil => simp [fromUtf8]
  | cons c text ih =>
    obtain ⟨byte, bytes, hbytes, hlead, hdrop⟩ := exists_utf8_cons c text
    rw [hbytes, fromUtf8, hlead]
    simp only [hdrop, ih]
    rfl

/-- What is decoded to a string is the bytes of the string. -/
theorem eq_utf8_of_fromUtf8 {bytes : Bytes} {text : Text} (h : fromUtf8 bytes = some text) :
    bytes = utf8 text := by
  induction bytes using fromUtf8.induct generalizing text with
  | case1 =>
    rw [fromUtf8] at h
    obtain rfl := Option.some.inj h
    rfl
  | case2 byte rest c hlead ih =>
    rw [fromUtf8, hlead] at h
    obtain ⟨later, hlater, rfl⟩ := Option.map_eq_some_iff.mp h
    rw [utf8_cons, ← ih hlater]
    exact eq_of_leadingChar hlead
  | case3 byte rest hlead =>
    rw [fromUtf8, hlead] at h
    cases h

/-! ## White space -/

/-- `char::is_whitespace`: the Unicode property `White_Space`. -/
def isWhitespace (c : Char) : Bool :=
  (0x9 ≤ c.toNat && c.toNat ≤ 0xd) || (0x2000 ≤ c.toNat && c.toNat ≤ 0x200a) ||
    c.toNat ∈ [0x20, 0x85, 0xa0, 0x1680, 0x2028, 0x2029, 0x202f, 0x205f, 0x3000]

/-- `str::trim`. -/
def trim (text : Text) : Text := (text.dropWhile isWhitespace).rdropWhile isWhitespace

end IrohExperiment.Rust

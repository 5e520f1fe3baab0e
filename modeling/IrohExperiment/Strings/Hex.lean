/-
# Bytes in text

Byte strings and texts as lists, and the hexadecimal spelling of keys
(`worker/src/relay-protocol.js`).

`hex` writes two digits for a byte and `unhex` reads them again, in either case of the
letters, and refuses what is not made of pairs of digits.  `unhex_hex` is the round trip
that keys take through texts.
-/
import Mathlib.Logic.Function.Basic
import Mathlib.Tactic

namespace IrohExperiment

/-- A byte string. -/
abbrev Bytes := List UInt8

/-- A text. -/
abbrev Text := List Char

/-! ## Hexadecimal -/

/-- One lower-case hexadecimal digit. -/
def hexDigit (n : ℕ) : Char := if n < 10 then Char.ofNat (48 + n) else Char.ofNat (87 + n)

/-- `byte.toString(16).padStart(2, "0")`. -/
def hexByte (byte : UInt8) : Text := [hexDigit (byte.toNat / 16), hexDigit (byte.toNat % 16)]

/-- `hex`. -/
def hex (bytes : Bytes) : Text := bytes.flatMap hexByte

/-- The value of a hexadecimal digit. -/
def hexValue (c : Char) : Option ℕ :=
  if '0' ≤ c ∧ c ≤ '9' then some (c.toNat - 48)
  else if 'a' ≤ c ∧ c ≤ 'f' then some (c.toNat - 87)
  else if 'A' ≤ c ∧ c ≤ 'F' then some (c.toNat - 55)
  else none

/-- `Number.parseInt(byte, 16)` on two characters, as a byte: the longest
numeric prefix counts, and `NaN` becomes 0. -/
def parseHexByte (a b : Char) : UInt8 :=
  match hexValue a, hexValue b with
  | some x, some y => UInt8.ofNat (16 * x + y)
  | some x, none => UInt8.ofNat x
  | none, _ => 0

/-- `unhex`: `text.match(/../g)` takes two characters at a time and drops an
odd one at the end. -/
def unhex : Text → Bytes
  | a :: b :: rest => parseHexByte a b :: unhex rest
  | _ => []

theorem parseHexByte_hexByte : ∀ byte : UInt8,
    parseHexByte (hexDigit (byte.toNat / 16)) (hexDigit (byte.toNat % 16)) = byte := by
  have h : ∀ n : Fin 256, parseHexByte (hexDigit (n.val / 16)) (hexDigit (n.val % 16))
      = UInt8.ofNat n.val := by decide +kernel
  intro byte
  have := h ⟨byte.toNat, byte.toNat_lt⟩
  simpa using this

/-- Keys survive their hexadecimal spelling. -/
@[simp] theorem unhex_hex (bytes : Bytes) : unhex (hex bytes) = bytes := by
  induction bytes with
  | nil => rfl
  | cons byte rest ih =>
    have hcons : hex (byte :: rest) = hexByte byte ++ hex rest := rfl
    rw [hcons, hexByte, List.cons_append, List.cons_append, List.nil_append, unhex,
      parseHexByte_hexByte, ih]

end IrohExperiment

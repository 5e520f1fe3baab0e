/-
# Values in text (`std`, `http`)

`u64::from_str`, `f64::from_str` and `IpAddr::from_str`, and HTTP header maps: names with
values that are byte strings, of which only some can be read as text.

Which texts are integers, which are floating-point numbers and which are addresses, as the
standard library documents it.  `HeaderMap.get` gives the first value of a name, and
`HeaderValue.toStr` the text of a value whose bytes are visible ASCII or tabs.
-/
import IrohExperiment.Rust.Net
import IrohExperiment.Rust.Parse

namespace IrohExperiment.Rust

/-! ## Integers -/

/-- `u64::from_str`: digits, maybe after a plus sign, and no overflow. -/
def parseU64 (text : Text) : Option UInt64 := do
  let digits := if text.head? = some '+' then text.tail else text
  if digits = [] then none
  let number ← digits.foldlM (fun n c => do
    let n := n * 10 + (← toDigit 10 c)
    if n < 2 ^ 64 then some n else none) 0
  return UInt64.ofNat number

/-! ## Floating point -/

/-- `f64` -/
abbrev F64 := Float.Model

/-- `f64::INFINITY` -/
def infinity : F64 := .pack (.infinity .positive)

/-- `f64::NAN` -/
def nan : F64 := .pack .notANumber

/-- The sign that a text begins with: whether it is a minus, and what follows. -/
def splitSign (text : Text) : Bool × Text :=
  match text with
  | '-' :: rest => (true, rest)
  | '+' :: rest => (false, rest)
  | _ => (false, text)

/-- The number that some digits spell. -/
def digitsValue (digits : Text) : ℕ := digits.foldl (fun n c => 10 * n + (toDigit 10 c).getD 0) 0

/-- The exponent that some digits spell; it stops growing at 65536. -/
def exponentValue (digits : Text) : ℕ :=
  digits.foldl (fun n c => if n < 65536 then 10 * n + (toDigit 10 c).getD 0 else n) 0

/-- `parse_scientific`: what stands behind the `e`. -/
def parseExponent (text : Text) : Option ℤ :=
  let (negative, digits) := splitSign text
  if digits = [] ∨ leadingDigits 10 digits ≠ digits then none
  else some (if negative then -(exponentValue digits : ℤ) else exponentValue digits)

/-- `parse_number`: the mantissa and the power of ten of a number without its sign. -/
def parseNumber (text : Text) : Option (ℕ × ℤ) :=
  let whole := leadingDigits 10 text
  let rest := text.drop whole.length
  let fraction := if rest.head? = some '.' then leadingDigits 10 rest.tail else []
  let rest := if rest.head? = some '.' then rest.tail.drop fraction.length else rest
  let mantissa := digitsValue (whole ++ fraction)
  if whole ++ fraction = [] then none
  else
    match rest with
    | [] => some (mantissa, -(fraction.length : ℤ))
    | 'e' :: exponent | 'E' :: exponent =>
      (parseExponent exponent).map fun e => (mantissa, e - fraction.length)
    | _ => none

/-- `char::to_ascii_lowercase` -/
def asciiLower (text : Text) : Text := text.map Char.toLower

/-- `parse_inf_nan` -/
def parseInfNan (text : Text) : Option F64 :=
  if asciiLower text = "nan".toList then some nan
  else if asciiLower text = "inf".toList ∨ asciiLower text = "infinity".toList then some infinity
  else none

/-- `f64::from_str` -/
def parseF64 (text : Text) : Option F64 := do
  let (negative, digits) := splitSign text
  if digits = [] then none
  let magnitude ← (parseNumber digits).map (fun (m, e) => Float.Model.ofScientific m e) <|>
    parseInfNan digits
  return if negative then -magnitude else magnitude

example : parseF64 "12.5e1".toList = some (.ofScientific 125 0) ∧ parseF64 ".".toList = none ∧
    parseF64 "-Infinity".toList = some (-infinity) := by decide +kernel

/-! ## Addresses -/

/-- `Ipv4Addr::new` -/
def Ipv4Addr.new (octets : List ℕ) : Ipv4Addr :=
  ⟨UInt32.ofNat (octets.foldl (fun n o => 256 * n + o) 0)⟩

/-- The groups of `read_groups`: the `left` groups from number `i` on that there are, whether
they end in an IPv4 address, and what follows. -/
def readGroupValues : ℕ → ℕ → Text → List ℕ × Bool × Text
  | 0, _, text => ([], false, text)
  | left + 1, i, text =>
    let group :=
      match readSeparator ':' i (readNumber 16 4 65536 true) text with
      | some (value, rest) =>
        let (values, ipv4, rest) := readGroupValues left (i + 1) rest
        (value :: values, ipv4, rest)
      | none => ([], false, text)
    if 0 < left then
      match readSeparator ':' i readIpv4Addr text with
      | some ([a, b, c, d], rest) => ([256 * a + b, 256 * c + d], true, rest)
      | _ => group
    else group

/-- An IPv6 address of eight groups; missing ones are zero. -/
def Ipv6Addr.ofGroups (groups : List ℕ) : Ipv6Addr where
  octets := (List.range 8).flatMap fun i => toBe 2 (groups.getD i 0)
  length_eq := by simp

/-- `Parser::read_ipv6_addr`, and what follows the address. -/
def readIpv6Addr (text : Text) : Option (Ipv6Addr × Text) :=
  let (head, headIpv4, rest) := readGroupValues 8 0 text
  if head.length = 8 then some (.ofGroups head, rest)
  else if headIpv4 then none
  else do
    let rest ← readChar ':' rest >>= readChar ':'
    let (tail, _, rest) := readGroupValues (8 - (head.length + 1)) 0 rest
    return (.ofGroups (head ++ List.replicate (8 - head.length - tail.length) 0 ++ tail), rest)

/-- `IpAddr::from_str` -/
def parseIpAddr (text : Text) : Option IpAddr := do
  let (ip, rest) ← (readIpv4Addr text).map
    (fun (octets, rest) => (IpAddr.v4 (.new octets), rest)) <|>
    (readIpv6Addr text).map (fun (ip, rest) => (IpAddr.v6 ip, rest))
  if rest = [] then some ip else none

example : parseIpAddr "192.0.2.1".toList = some (.v4 ⟨0xc0000201⟩) ∧
    parseIpAddr "2001:db8::1".toList = some (.v6 (.ofGroups [0x2001, 0xdb8, 0, 0, 0, 0, 0, 1])) ∧
    parseIpAddr "192.0.2.1:80".toList = none := by decide +kernel

/-! ## Headers -/

/-- `HeaderValue`: bytes that are tabs, or printable, or not ASCII. -/
structure HeaderValue where
  bytes : Bytes
  legal : ∀ byte ∈ bytes, byte = 9 ∨ 32 ≤ byte ∧ byte ≠ 127
  deriving DecidableEq, Repr

/-- `is_visible_ascii` -/
def isVisibleAscii (byte : UInt8) : Bool := byte = 9 ∨ 32 ≤ byte ∧ byte < 127

/-- The value can be read as text. -/
def HeaderValue.Readable (value : HeaderValue) : Prop :=
  ∀ byte ∈ value.bytes, isVisibleAscii byte = true

instance (value : HeaderValue) : Decidable value.Readable :=
  List.decidableBAll _ _

/-- `HeaderValue::to_str` -/
def HeaderValue.toStr (value : HeaderValue) : Option Text :=
  if value.Readable then some (value.bytes.map fun byte => Char.ofNat byte.toNat) else none

/-- `HeaderMap`: the fields in their order; a name may occur more than once. -/
abbrev HeaderMap := List (Text × HeaderValue)

/-- `HeaderMap::get`: the first value of the name. -/
def HeaderMap.get (headers : HeaderMap) (name : Text) : Option HeaderValue :=
  (headers.find? fun field => field.1 = name).map Prod.snd

theorem HeaderValue.toStr_readable {value : HeaderValue} (h : value.Readable) :
    value.toStr = some (value.bytes.map fun byte => Char.ofNat byte.toNat) :=
  if_pos h

theorem HeaderValue.toStr_unreadable {value : HeaderValue} (h : ¬ value.Readable) :
    value.toStr = none :=
  if_neg h

/-- No bytes can be read. -/
theorem HeaderValue.readable_of_nil {value : HeaderValue} (h : value.bytes = []) :
    value.Readable := by
  unfold Readable
  rw [h]
  exact fun _ hmem => absurd hmem List.not_mem_nil

end IrohExperiment.Rust

import BindGen.Text.Blank

/-!
# Numerals

Integers as a user may write them: in the decimal digits of any script, with blanks around, a sign
in front and single underscores between digits. Bases beyond ten take Latin letters for the further
digits, and a numeral in a base of computing may name it in front of its digits.
-/

namespace BindGen

/-- The value of a hexadecimal digit. -/
def hexValue? (c : Char) : Option Nat :=
  if c.isDigit then some (c.toNat - 48)
  else if 'a' ≤ c ∧ c ≤ 'f' then some (c.toNat - 87)
  else if 'A' ≤ c ∧ c ≤ 'F' then some (c.toNat - 55)
  else none

namespace Text

/-- The zeros of all scripts with decimal digits; the other nine digits follow each of them. -/
def zeros : List Nat :=
  [0x30, 0x660, 0x6F0, 0x7C0, 0x966, 0x9E6, 0xA66, 0xAE6, 0xB66, 0xBE6, 0xC66, 0xCE6, 0xD66, 0xDE6,
    0xE50, 0xED0, 0xF20, 0x1040, 0x1090, 0x17E0, 0x1810, 0x1946, 0x19D0, 0x1A80, 0x1A90, 0x1B50,
    0x1BB0, 0x1C40, 0x1C50, 0xA620, 0xA8D0, 0xA900, 0xA9D0, 0xA9F0, 0xAA50, 0xABF0, 0xFF10, 0x104A0,
    0x10D30, 0x11066, 0x110F0, 0x11136, 0x111D0, 0x112F0, 0x11450, 0x114D0, 0x11650, 0x116C0,
    0x11730, 0x118E0, 0x11950, 0x11C50, 0x11D50, 0x11DA0, 0x16A60, 0x16AC0, 0x16B50, 0x1D7CE,
    0x1D7D8, 0x1D7E2, 0x1D7EC, 0x1D7F6, 0x1E140, 0x1E2F0, 0x1E950, 0x1FBF0]

/-- The value of a decimal digit. -/
def decimalDigit? (c : Char) : Option Nat :=
  (zeros.find? fun z => z ≤ c.toNat && c.toNat ≤ z + 9).map fun z => c.toNat - z

/-- Whether a character is a decimal digit. -/
def isDecimalDigit (c : Char) : Bool := (decimalDigit? c).isSome

/-- The value of a digit, or of a Latin letter that serves as one. -/
def digitValue? (c : Char) : Option Nat :=
  match decimalDigit? c with
  | some n => some n
  | none =>
    if 'a' ≤ c ∧ c ≤ 'z' then some (c.toNat - 87)
    else if 'A' ≤ c ∧ c ≤ 'Z' then some (c.toNat - 55)
    else none

/-- The value of a digit of a base. -/
def digitIn? (base : Nat) (c : Char) : Option Nat := (digitValue? c).filter (· < base)

/-- The digits of a base that a text consists of, with single underscores between them left out. -/
def digits? (base : Nat) : List Char → Option (List Nat)
  | [] => none
  | [c] => (digitIn? base c).map fun d => [d]
  | c :: '_' :: rest => do return (← digitIn? base c) :: (← digits? base rest)
  | c :: rest => do return (← digitIn? base c) :: (← digits? base rest)

/-- The natural that digits of a base write. -/
def ofDigits (base : Nat) (ds : List Nat) : Nat := ds.foldl (fun n d => base * n + d) 0

/-- The greatest number of digits of a decimal integer that is read or shown. -/
def digitLimit : Nat := 4300

/-- The greatest number that a place, a width or a precision may have. -/
def greatestPlace : Nat := 9223372036854775807

/-- The greatest width of a text that fits into memory. -/
def greatestWidth : Nat := 10000000000

/-- Why a text writes no integer. -/
inductive NumeralProblem where
  | notNumeral
  | tooLong (digits : Nat)
deriving DecidableEq

/-- Whether a character may stand around a numeral: any blank that does not separate records. -/
def isOuterBlank (c : Char) : Bool := isBlank c && !(28 ≤ c.toNat && c.toNat ≤ 31)

/-- A text without the blanks around it. -/
def bare (s : List Char) : List Char :=
  ((s.dropWhile isOuterBlank).reverse.dropWhile isOuterBlank).reverse

/-- Whether a minus sign stands in front of a text, and the text without its sign. -/
def takeSign : List Char → Bool × List Char
  | '-' :: rest => (true, rest)
  | '+' :: rest => (false, rest)
  | s => (false, s)

/-- The letters that name a base behind a zero. -/
def baseLetters (base : Nat) : List Char :=
  match base with
  | 2 => ['b', 'B']
  | 8 => ['o', 'O']
  | 16 => ['x', 'X']
  | _ => []

/-- What stands behind the name of a base, with an underscore or not. -/
def behindBase (base : Nat) (s : List Char) : List Char :=
  match s with
  | '0' :: letter :: rest =>
    if (baseLetters base).contains letter then
      match rest with
      | '_' :: rest => rest
      | rest => rest
    else s
  | s => s

/-- The natural that a text without blanks and sign writes in a base. Only decimal numerals have a
limit; it counts before anything that follows the digits. -/
def naturalIn (base : Nat) (s : List Char) : Except NumeralProblem Nat :=
  let isDigit (c : Char) : Bool := c == '_' || (digitIn? base c).isSome
  match digits? base (s.takeWhile isDigit) with
  | none => .error .notNumeral
  | some ds =>
    if base = 10 ∧ digitLimit < ds.length then .error (.tooLong ds.length)
    else if (s.dropWhile isDigit).isEmpty then .ok (ofDigits base ds)
    else .error .notNumeral

/-- The integer that a text writes in a base. -/
def integerIn (base : Nat) (s : List Char) : Except NumeralProblem Int := do
  let (negative, rest) := takeSign (bare s)
  let n ← naturalIn base (behindBase base rest)
  return if negative then -(n : Int) else n

/-- The decimal integer that a text writes. -/
def integer? (s : List Char) : Option Int := (integerIn 10 s).toOption

/-- Whether a text looks like a negative number: a hyphen, digits and perhaps a point before the
last of them. One line feed may follow. -/
def looksNegative (s : List Char) : Bool :=
  match s with
  | '-' :: rest =>
    let body := if rest.getLast? = some '\n' then rest.dropLast else rest
    match body.dropWhile isDecimalDigit with
    | [] => !body.isEmpty
    | '.' :: fraction => !fraction.isEmpty && fraction.all isDecimalDigit
    | _ => false
  | _ => false

end Text
end BindGen

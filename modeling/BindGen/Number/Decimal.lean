import BindGen.Number.Shortest
import BindGen.Text.Numeral

/-!
# Decimal texts of floats

Reading a float: digits of any script with a point, an exponent and a sign, each of them optional,
or a word for infinity or for no number. The value is the nearest one of the binary format.

Writing a float with a given number of digits, behind the point or in all: what is left out rounds
to the nearest digit, an exact half going to the even one.
-/

namespace BindGen.Double

/-- The words for values without digits. -/
def wordValues : List (String × Double) :=
  [("inf", .infinite false), ("infinity", .infinite false), ("nan", .nan)]

/-- The exponent that a text is: nothing, or a letter with a sign or none and digits. -/
def exponentOf? (s : List Char) : Option Int :=
  match s with
  | [] => some 0
  | e :: rest =>
    if e = 'e' ∨ e = 'E' then
      let (negative, digits) := Text.takeSign rest
      match digits.isEmpty, digits.mapM Text.decimalDigit? with
      | false, some ds =>
        let n : Int := Text.ofDigits 10 ds
        some (if negative then -n else n)
      | _, _ => none
    else none

/-- The magnitude that digits with a point and an exponent write. -/
def digitsValue? (s : List Char) : Option Double := do
  let whole := s.takeWhile Text.isDecimalDigit
  let rest := s.dropWhile Text.isDecimalDigit
  let (fraction, rest) := match rest with
    | '.' :: rest =>
      (rest.takeWhile Text.isDecimalDigit, rest.dropWhile Text.isDecimalDigit)
    | rest => ([], rest)
  if whole.isEmpty && fraction.isEmpty then none
  let e ← exponentOf? rest
  let ds ← (whole ++ fraction).mapM Text.decimalDigit?
  return ofDecimal false (Text.ofDigits 10 ds) (e - fraction.length)

/-- The float that a text without underscores writes, with blanks around it or not. -/
def ofText? (s : List Char) : Option Double :=
  let (negative, rest) := Text.takeSign (Text.bare s)
  let word := String.ofList (rest.map Char.toLower)
  let magnitude := (wordValues.lookup word).orElse fun _ => digitsValue? rest
  magnitude.map fun x => if negative then x.negate else x

/-! ## Rounded decimals -/

/-- The forms of a rounded value: with digits behind the point, with an exponent, or whichever of
the two suits the magnitude. -/
inductive RoundedForm where
  | fixed
  | scientific
  | general
deriving DecidableEq

namespace RoundedForm

/-- Digits with a point in front of the last of them; without such digits there is a point only if
it is to be kept. -/
def pointed (precision : Nat) (keepPoint : Bool) (n : Nat) : List Char :=
  let ds := padLeft (precision + 1) (Nat.toDigits 10 n)
  let (whole, fraction) := ds.splitAt (ds.length - precision)
  if fraction.isEmpty && !keepPoint then whole else whole ++ '.' :: fraction

/-- The text of an exponent. -/
def exponentText (e : Int) : List Char :=
  'e' :: (if e < 0 then '-' else '+') :: padLeft 2 (Nat.toDigits 10 e.natAbs)

/-- The digits of a quotient, so many behind the first one, and the decimal exponent of the first
one. -/
def significant (precision num den : Nat) : Nat × Int :=
  if num = 0 then (0, 0)
  else
    let e := decimalTop num den - 1
    let shift : Int := precision - e
    let n := roundQuotient (num * Nat.pow 10 shift.toNat) (den * Nat.pow 10 (-shift).toNat)
    if n < Nat.pow 10 (precision + 1) then (n, e) else (n / 10, e + 1)

/-- A quotient with so many digits behind the point. -/
def fixedText (precision : Nat) (keepPoint : Bool) (num den : Nat) : List Char :=
  pointed precision keepPoint (roundQuotient (num * Nat.pow 10 precision) den)

/-- A quotient with an exponent, and so many digits behind the point. -/
def scientificText (precision : Nat) (keepPoint : Bool) (num den : Nat) : List Char :=
  let (n, e) := significant precision num den
  pointed precision keepPoint n ++ exponentText e

/-- Digits without the zeros behind the point, and without a point at the end. -/
def stripped (s : List Char) : List Char :=
  if s.contains '.' then
    let kept := (s.reverse.dropWhile (· == '0')).reverse
    if kept.getLast? = some '.' then kept.dropLast else kept
  else s

/-- A quotient with so many digits in all; zeros at the end are kept together with the point. -/
def generalText (precision : Nat) (keepPoint : Bool) (num den : Nat) : List Char :=
  let digits := max precision 1
  let (n, e) := significant (digits - 1) num den
  let trim (s : List Char) : List Char := if keepPoint then s else stripped s
  if -4 ≤ e ∧ e < digits then
    trim (fixedText ((digits : Int) - 1 - e).toNat keepPoint num den)
  else trim (pointed (digits - 1) keepPoint n) ++ exponentText e

/-- A quotient in a form. -/
def textOf (form : RoundedForm) (precision : Nat) (keepPoint : Bool) (num den : Nat) : List Char :=
  match form with
  | fixed => fixedText precision keepPoint num den
  | scientific => scientificText precision keepPoint num den
  | general => generalText precision keepPoint num den

end RoundedForm

/-- The text of a value in a form, with a sign only if it is negative. -/
def rounded (form : RoundedForm) (precision : Nat) (keepPoint : Bool) (x : Double) : List Char :=
  let sign := if x.isNegative then ['-'] else []
  match x, x.toRatio? with
  | .nan, _ => plain.nan.toList
  | _, some (num, den) => sign ++ form.textOf precision keepPoint num.natAbs den
  | _, none => sign ++ plain.infinity.toList

end BindGen.Double

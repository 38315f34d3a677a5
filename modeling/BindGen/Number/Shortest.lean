import BindGen.Number.Double

/-!
# Shortest decimals

A finite value is written with the fewest digits that read back to it, and of those with the digits
nearest to it; of two equally near ones the even digit is taken. `Notation` holds the layout
decisions, `plain` is the layout that this library writes.
-/

namespace BindGen.Double

/-- The decimal `digits * 10 ^ scale`. -/
structure Decimal where
  digits : Nat
  scale : Int
deriving DecidableEq, Repr

/-- Whether the decimal reads back to the magnitude of rank `r`. -/
def Decimal.readsBack (d : Decimal) (r : Nat) : Bool :=
  ofDecimal false d.digits d.scale == ofRank false r

/-- The least `k` such that `num / den < 10 ^ k`, found from an estimate by the binary logarithm. -/
def decimalTop (num den : Nat) : Int :=
  let estimate : Int := (((num.log2 : Int) - den.log2) * 30103) / 100000 - 1
  let below (k : Int) : Bool := num * Nat.pow 10 (-k).toNat < den * Nat.pow 10 k.toNat
  ((List.range 6).map fun (i : Nat) => estimate + (i : Int)).find? below |>.getD (estimate + 6)

/-- The neighbours of `num / den` on the grid `10 ^ scale` that read back, the nearer first. -/
def onGrid (r num den : Nat) (scale : Int) : Option Decimal :=
  let n := num * Nat.pow 10 (-scale).toNat
  let d := den * Nat.pow 10 scale.toNat
  let low := n / d
  let candidates : List Nat :=
    match compare (2 * (n % d)) d with
    | .lt => [low, low + 1]
    | .gt => [low + 1, low]
    | .eq => if low % 2 = 0 then [low, low + 1] else [low + 1, low]
  (candidates.map fun digits => Decimal.mk digits scale).find? (·.readsBack r)

/-- The decimal without trailing zeros in its digits. -/
def Decimal.strip (d : Decimal) : Decimal :=
  if h : d.digits ≠ 0 ∧ d.digits % 10 = 0 then Decimal.strip ⟨d.digits / 10, d.scale + 1⟩ else d
termination_by d.digits
decreasing_by exact Nat.div_lt_self (by omega) (by decide)

/-- The fewest digits that read back to the magnitude of rank `r`, which is not zero. If no decimal
of up to seventeen digits did, the exact value would be written. -/
def shortest (r : Nat) : Decimal :=
  let m := mantissa r
  let q := exponent r
  let num := m * Nat.pow 2 q.toNat
  let den := Nat.pow 2 (-q).toNat
  let top := decimalTop num den
  let found := (List.range 17).findSome? fun (i : Nat) => onGrid r num den (top - 1 - (i : Int))
  (found.getD ⟨m * Nat.pow 5 (-q).toNat * Nat.pow 2 q.toNat, min q 0⟩).strip

/-- The layout decisions of a number format. -/
structure Notation where
  /-- Decimal exponents of the leading digit from here on are written positionally. -/
  plainFrom : Int
  /-- Decimal exponents of the leading digit from here on are written with an exponent. -/
  plainBelow : Int
  /-- The least number of digits of an exponent. -/
  exponentWidth : Nat
  nan : String
  infinity : String

/-- Digits with zeros in front up to a width. -/
def padLeft (width : Nat) (s : List Char) : List Char :=
  List.replicate (width - s.length) '0' ++ s

/-- The digits of a decimal in the given notation. A point is always written positionally, and only
between digits in front of an exponent. -/
def Notation.layout (f : Notation) (d : Decimal) : List Char :=
  let ds := Nat.toDigits 10 d.digits
  let lead : Int := d.scale + ds.length - 1
  if f.plainFrom ≤ lead ∧ lead < f.plainBelow then
    if 0 ≤ d.scale then ds ++ List.replicate d.scale.toNat '0' ++ ".0".toList
    else if 0 ≤ lead then
      ds.take (lead + 1).toNat ++ '.' :: ds.drop (lead + 1).toNat
    else '0' :: '.' :: List.replicate (-lead - 1).toNat '0' ++ ds
  else
    let mantissaText := match ds with
      | first :: second :: rest => first :: '.' :: second :: rest
      | _ => ds
    let exponentText := padLeft f.exponentWidth (Nat.toDigits 10 lead.natAbs)
    mantissaText ++ 'e' :: (if lead < 0 then '-' else '+') :: exponentText

/-- The text of a value in the given notation. -/
def Notation.text (f : Notation) : Double → String
  | .nan => f.nan
  | .infinite s => (if s then "-" else "") ++ f.infinity
  | .finite s r =>
    let magnitude := if r.val = 0 then "0.0" else String.ofList (f.layout (shortest r))
    (if s then "-" else "") ++ magnitude

/-- Numbers are positional from a ten-thousandth up to below ten to the sixteenth, and otherwise
have a signed exponent of at least two digits. -/
def plain : Notation where
  plainFrom := -4
  plainBelow := 16
  exponentWidth := 2
  nan := "nan"
  infinity := "inf"

/-- The text of a value. -/
def text (x : Double) : String := plain.text x

end BindGen.Double

/-!
# Binary floating-point numbers

The values of the 64-bit binary format, each written in one way. A finite value is a sign and a
rank: the ranks number the magnitudes upwards from zero, so that rounding a quotient of naturals is
the choice of a rank. `ofRatio` rounds to the nearest value, an exact half going to the even rank.
-/

namespace BindGen

/-- The number of magnitudes that share an exponent. -/
abbrev Double.binade : Nat := Nat.pow 2 52

/-- The number of finite magnitudes. -/
abbrev Double.rankCount : Nat := 2047 * Double.binade

/-- A value of the 64-bit binary format. -/
inductive Double where
  | nan
  | infinite (negative : Bool)
  | finite (negative : Bool) (rank : Fin Double.rankCount)
deriving DecidableEq

namespace Double

/-- The magnitude of rank `r` is `(mantissa r) * 2 ^ (exponent r)`. -/
def mantissa (r : Nat) : Nat := if r < binade then r else binade + r % binade

/-- The magnitude of rank `r` is `(mantissa r) * 2 ^ (exponent r)`. -/
def exponent (r : Nat) : Int := if r < binade then -1074 else (r / binade : Nat) - 1075

/-- The positive or negative zero. -/
def zero (negative : Bool) : Double := .finite negative ⟨0, by decide⟩

/-- A double that stands where any will do. -/
instance : Inhabited Double := ⟨zero false⟩

/-- The value with the given sign and rank; ranks beyond the last are infinite. -/
def ofRank (negative : Bool) (r : Nat) : Double :=
  if h : r < rankCount then .finite negative ⟨r, h⟩ else .infinite negative

/-- The quotient rounded to the nearest natural, an exact half to the even one. -/
def roundQuotient (num den : Nat) : Nat :=
  let q := num / den
  match compare (2 * (num % den)) den with
  | .lt => q
  | .gt => q + 1
  | .eq => q + q % 2

/-- The rank nearest to `num / den`, where `den` is not zero. -/
def nearestRank (num den : Nat) : Nat :=
  if num = 0 then 0
  else
    let estimate : Int := max ((num.log2 : Int) - den.log2 - 52) (-1074)
    let scaled (q : Int) : Nat × Nat := (num * Nat.pow 2 (-q).toNat, den * Nat.pow 2 q.toNat)
    let wide := scaled estimate
    let q := if wide.1 < binade * wide.2 then max (estimate - 1) (-1074) else estimate
    let (n, d) := scaled q
    (q + 1074).toNat * binade + roundQuotient n d

/-- The value nearest to a quotient. -/
def ofRatio (negative : Bool) (num den : Nat) : Double :=
  ofRank negative (nearestRank num den)

/-- The number of decimal digits of a natural; zero has one. -/
def digitCount (n : Nat) : Nat := (Nat.toDigits 10 n).length

/-- The value nearest to `digits * 10 ^ scale`. Magnitudes far outside the format are decided from
the number of digits alone. -/
def ofDecimal (negative : Bool) (digits : Nat) (scale : Int) : Double :=
  if digits = 0 then zero negative
  else
    let top : Int := scale + digitCount digits
    if top > 310 then .infinite negative
    else if top < -326 then zero negative
    else ofRatio negative (digits * Nat.pow 10 scale.toNat) (Nat.pow 10 (-scale).toNat)

/-- The value with the opposite sign. -/
def negate : Double → Double
  | nan => nan
  | infinite s => .infinite !s
  | finite s r => .finite (!s) r

/-- Whether the value is zero of either sign. -/
def isZero : Double → Bool
  | finite _ r => r.val = 0
  | _ => false

/-- The integer that the value is, if it is one. -/
def toInt? : Double → Option Int
  | finite s r =>
    let m := mantissa r
    let q := exponent r
    let magnitude? :=
      if 0 ≤ q then some (m * Nat.pow 2 q.toNat)
      else if m % Nat.pow 2 (-q).toNat = 0 then some (m / Nat.pow 2 (-q).toNat) else none
    magnitude?.map fun n => if s then -(n : Int) else n
  | _ => none

/-- The value nearest to an integer. -/
def ofInt (n : Int) : Double := ofRatio (n < 0) n.natAbs 1

/-- The exact quotient that a finite value is: a signed numerator over a power of two. -/
def toRatio? : Double → Option (Int × Nat)
  | finite s r =>
    let m : Nat := mantissa r * Nat.pow 2 (exponent r).toNat
    some (if s then -(m : Int) else m, Nat.pow 2 (-exponent r).toNat)
  | _ => none

/-- The value nearest to a quotient with a sign; a zero takes the sign that is given. -/
def ofSignedRatio (zeroNegative : Bool) (num : Int) (den : Nat) : Double :=
  if num = 0 then zero zeroNegative else ofRatio (num < 0) num.natAbs den

/-- Whether the value has a minus sign. -/
def isNegative : Double → Bool
  | nan => false
  | infinite s => s
  | finite s _ => s

/-- The rounded sum of two values. -/
def add (a b : Double) : Double :=
  match a, b with
  | nan, _ | _, nan => nan
  | infinite s, infinite t => if s = t then infinite s else nan
  | infinite s, _ | _, infinite s => infinite s
  | finite .., finite .. =>
    match a.toRatio?, b.toRatio? with
    | some (n, d), some (m, e) =>
      ofSignedRatio (a.isNegative && b.isNegative) (n * e + m * d) (d * e)
    | _, _ => nan

/-- The rounded product of two values. -/
def multiply (a b : Double) : Double :=
  let negative := a.isNegative != b.isNegative
  match a, b with
  | nan, _ | _, nan => nan
  | infinite _, x | x, infinite _ => if x.isZero then nan else infinite negative
  | finite .., finite .. =>
    match a.toRatio?, b.toRatio? with
    | some (n, d), some (m, e) => ofSignedRatio negative (n * m) (d * e)
    | _, _ => nan

/-- Zero has rank zero. -/
theorem nearestRank_zero (den : Nat) : nearestRank 0 den = 0 := by simp [nearestRank]

/-- A rank within the format is kept. -/
theorem ofRank_of_lt {negative : Bool} {r : Nat} (h : r < rankCount) :
    ofRank negative r = .finite negative ⟨r, h⟩ := by simp [ofRank, h]

end Double
end BindGen

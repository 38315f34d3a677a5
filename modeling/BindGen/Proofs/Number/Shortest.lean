import BindGen.Number.Shortest
import Mathlib.Algebra.Order.Field.Power
import Mathlib.Algebra.Order.Field.Rat
import Mathlib.Tactic.FieldSimp
import Mathlib.Tactic.Linarith
import Mathlib.Tactic.NormNum
import Mathlib.Tactic.Positivity
import Mathlib.Tactic.Ring

/-!
# Shortest decimals read back

The rank nearest to a quotient is told by the exponent of its binade, of which there is one. It is
therefore a function of the value of the quotient, however numerator and denominator are scaled, and
the rank of a quotient that is the magnitude of a rank is that rank.

So the digits that a float is written with read back to the float, whichever of them were found:
those on the coarsest grid, or the exact value. Zeros at the end of the digits do not count.
-/

namespace BindGen.Double

/-! ## The rank of a quotient -/

/-- The exponent of the binade that a positive magnitude falls into. -/
structure Suits (q : Int) (x : ℚ) : Prop where
  least : -1074 ≤ q
  below : x < 2 ^ 53 * 2 ^ q
  above : q = -1074 ∨ 2 ^ 52 * 2 ^ q ≤ x

/-- A magnitude falls into one binade. -/
theorem Suits.unique {p q : Int} {x : ℚ} (hp : Suits p x) (hq : Suits q x) : p = q := by
  have hle {p q : Int} (hp : Suits p x) (hq : Suits q x) : p ≤ q := by
    rcases hp.above with rfl | habove
    · exact hq.least
    · by_contra h
      have hpow : (2 : ℚ) ^ (q + 1) ≤ 2 ^ p := zpow_le_zpow_right₀ (by norm_num) (by omega)
      rw [zpow_add₀ (by norm_num), zpow_one] at hpow
      have := hq.below
      linarith
  exact le_antisymm (hle hp hq) (hle hq hp)

-- A power of two as it is spread over a numerator and a denominator.
private theorem two_zpow (q : Int) : (2 : ℚ) ^ q = 2 ^ q.toNat / 2 ^ (-q).toNat := by
  rw [← zpow_natCast, ← zpow_natCast, ← zpow_sub₀ (by norm_num)]
  congr 1
  omega

private theorem wide_iff {num den : Nat} (hden : den ≠ 0) (q : Int) :
    num * 2 ^ (-q).toNat < binade * (den * 2 ^ q.toNat) ↔ (num / den : ℚ) < 2 ^ 52 * 2 ^ q := by
  have hd : (0 : ℚ) < den := by positivity
  have hq : (0 : ℚ) < 2 ^ (-q).toNat := by positivity
  have hbinade : ((binade : Nat) : ℚ) = 2 ^ 52 := by norm_num
  rw [two_zpow, div_lt_iff₀ hd, ← mul_div_assoc, div_mul_eq_mul_div, lt_div_iff₀ hq,
    ← Nat.cast_lt (α := ℚ), Nat.cast_mul, Nat.cast_mul, hbinade]
  push_cast
  rw [mul_assoc, mul_comm (2 ^ q.toNat : ℚ)]

private theorem log2_bounds {num den : Nat} (hnum : num ≠ 0) (hden : den ≠ 0) :
    (2 : ℚ) ^ ((num.log2 : Int) - den.log2 - 1) ≤ num / den ∧
      (num / den : ℚ) < 2 ^ ((num.log2 : Int) - den.log2 + 1) := by
  have hn : ((2 ^ num.log2 : Nat) : ℚ) ≤ num := Nat.cast_le.mpr (Nat.log2_self_le hnum)
  have hn' : (num : ℚ) < (2 ^ (num.log2 + 1) : Nat) := Nat.cast_lt.mpr Nat.lt_log2_self
  have hd : ((2 ^ den.log2 : Nat) : ℚ) ≤ den := Nat.cast_le.mpr (Nat.log2_self_le hden)
  have hd' : (den : ℚ) < (2 ^ (den.log2 + 1) : Nat) := Nat.cast_lt.mpr Nat.lt_log2_self
  have hpos : (0 : ℚ) < den := by positivity
  push_cast at hn hn' hd hd'
  have hlow : (num.log2 : Int) - den.log2 - 1 = num.log2 - (den.log2 + 1 : Nat) := by
    push_cast
    ring
  have hhigh : (num.log2 : Int) - den.log2 + 1 = (num.log2 + 1 : Nat) - den.log2 := by
    push_cast
    ring
  rw [hlow, hhigh, zpow_sub₀ (by norm_num), zpow_sub₀ (by norm_num)]
  simp only [zpow_natCast]
  constructor
  · rw [le_div_iff₀ hpos]
    calc (2 : ℚ) ^ num.log2 / 2 ^ (den.log2 + 1) * den
        ≤ 2 ^ num.log2 / 2 ^ (den.log2 + 1) * 2 ^ (den.log2 + 1) := by gcongr
      _ = 2 ^ num.log2 := by field_simp
      _ ≤ num := hn
  · rw [div_lt_iff₀ hpos]
    calc (num : ℚ) < 2 ^ (num.log2 + 1) := hn'
      _ = 2 ^ (num.log2 + 1) / 2 ^ den.log2 * 2 ^ den.log2 := by field_simp
      _ ≤ 2 ^ (num.log2 + 1) / 2 ^ den.log2 * den := by gcongr

-- The rank nearest to a quotient is taken in the binade that the quotient falls into.
private theorem exists_nearestRank_eq {num den : Nat} (hnum : num ≠ 0) (hden : den ≠ 0) :
    ∃ q, Suits q (num / den) ∧ nearestRank num den =
      (q + 1074).toNat * binade + roundQuotient (num * 2 ^ (-q).toNat) (den * 2 ^ q.toNat) := by
  obtain ⟨hlow, hhigh⟩ := log2_bounds hnum hden
  rw [nearestRank, if_neg hnum]
  simp only [Nat.pow_eq]
  generalize he : max ((num.log2 : Int) - den.log2 - 52) (-1074) = e
  refine ⟨_, ?_, rfl⟩
  have hbelow : (num / den : ℚ) < 2 ^ 53 * 2 ^ e := by
    have hpow : (2 : ℚ) ^ ((num.log2 : Int) - den.log2 + 1) ≤ 2 ^ ((53 : Nat) + e) :=
      zpow_le_zpow_right₀ (by norm_num) (by omega)
    rw [zpow_add₀ (by norm_num) ((53 : Nat) : Int), zpow_natCast] at hpow
    exact hhigh.trans_le hpow
  by_cases hw : num * 2 ^ (-e).toNat < binade * (den * 2 ^ e.toNat)
  · rw [if_pos hw]
    rw [wide_iff hden] at hw
    by_cases hleast : e = -1074
    · rw [hleast] at hbelow ⊢
      exact ⟨le_rfl, hbelow, Or.inl rfl⟩
    · rw [max_eq_left (by omega)]
      refine ⟨by omega, ?_, Or.inr ?_⟩
      · rw [zpow_sub_one₀ (by norm_num)]
        linarith
      · have hpow : (2 : ℚ) ^ ((52 : Nat) + (e - 1)) = 2 ^ ((num.log2 : Int) - den.log2 - 1) := by
          congr 1
          omega
        rw [zpow_add₀ (by norm_num) ((52 : Nat) : Int), zpow_natCast] at hpow
        exact hpow.trans_le hlow
  · rw [if_neg hw]
    rw [wide_iff hden, not_lt] at hw
    exact ⟨by omega, hbelow, Or.inr hw⟩

/-- The rank nearest to a quotient, in a binade that the quotient falls into. -/
theorem nearestRank_eq {num den : Nat} (hnum : num ≠ 0) (hden : den ≠ 0) {q : Int}
    (hq : Suits q (num / den)) :
    nearestRank num den =
      (q + 1074).toNat * binade + roundQuotient (num * 2 ^ (-q).toNat) (den * 2 ^ q.toNat) := by
  obtain ⟨p, hp, h⟩ := exists_nearestRank_eq hnum hden
  rw [h, hp.unique hq]

/-- Rounding a quotient does not depend on a common factor. -/
theorem roundQuotient_scale {c : Nat} (hc : c ≠ 0) (num den : Nat) :
    roundQuotient (c * num) (c * den) = roundQuotient num den := by
  have hpos : 0 < c := Nat.pos_of_ne_zero hc
  have hcompare : compare (2 * (c * (num % den))) (c * den) = compare (2 * (num % den)) den := by
    rw [Nat.mul_left_comm]
    simp only [compare, compareOfLessAndEq, Nat.mul_lt_mul_left hpos, Nat.mul_right_inj hc]
  rw [roundQuotient, roundQuotient, Nat.mul_mod_mul_left, hcompare, Nat.mul_div_mul_left _ _ hpos]

/-- A whole quotient is not rounded. -/
theorem roundQuotient_whole {den : Nat} (hden : den ≠ 0) (n : Nat) :
    roundQuotient (n * den) den = n := by
  have hpos : 0 < den := Nat.pos_of_ne_zero hden
  rw [roundQuotient, Nat.mul_mod_left, Nat.mul_div_cancel _ hpos, Nat.compare_eq_lt.mpr (by omega)]

/-- The nearest rank does not depend on a common factor. -/
theorem nearestRank_scale {c : Nat} (hc : c ≠ 0) (num : Nat) {den : Nat} (hden : den ≠ 0) :
    nearestRank (c * num) (c * den) = nearestRank num den := by
  by_cases hnum : num = 0
  · rw [hnum, Nat.mul_zero, nearestRank_zero, nearestRank_zero]
  · obtain ⟨q, hq, h⟩ := exists_nearestRank_eq hnum hden
    have hvalue : ((c * num : Nat) / (c * den : Nat) : ℚ) = num / den := by
      push_cast
      exact mul_div_mul_left _ _ (Nat.cast_ne_zero.mpr hc)
    rw [h, nearestRank_eq (Nat.mul_ne_zero hc hnum) (Nat.mul_ne_zero hc hden) (hvalue ▸ hq),
      Nat.mul_assoc, Nat.mul_assoc, roundQuotient_scale hc]

-- Ranks have magnitudes in the binades of their exponents.
private theorem suits_exponent {r : Nat} : Suits (exponent r) (mantissa r * 2 ^ exponent r) := by
  have hq : (0 : ℚ) < 2 ^ exponent r := by positivity
  have hmod : r % binade < binade := Nat.mod_lt _ (by decide)
  have hmantissa : mantissa r < 2 * binade := by
    rw [mantissa]
    split <;> omega
  have hbelow : (mantissa r : ℚ) < 2 ^ 53 := by
    have : (mantissa r : ℚ) < (2 * binade : Nat) := Nat.cast_lt.mpr hmantissa
    norm_num at this ⊢
    exact this
  refine ⟨?_, by gcongr, ?_⟩
  · rw [exponent]
    split
    · exact le_rfl
    · next h =>
      have hdiv : 1 ≤ r / binade := (Nat.one_le_div_iff (by decide)).mpr (not_lt.mp h)
      omega
  · by_cases h : r < binade
    · left
      rw [exponent, if_pos h]
    · right
      have habove : ((binade : Nat) : ℚ) ≤ mantissa r := by
        rw [mantissa, if_neg h]
        exact Nat.cast_le.mpr (Nat.le_add_right _ _)
      have hbinade : ((binade : Nat) : ℚ) = 2 ^ 52 := by norm_num
      rw [← hbinade]
      gcongr

/-- The rank nearest to the magnitude of a rank is that rank. -/
theorem nearestRank_exact (r : Nat) :
    nearestRank (mantissa r * 2 ^ (exponent r).toNat) (2 ^ (-exponent r).toNat) = r := by
  by_cases hm : mantissa r = 0
  · have hr : r = 0 := by
      rw [mantissa] at hm
      split at hm
      · exact hm
      · exact absurd hm (by simp)
    rw [hm, Nat.zero_mul, nearestRank_zero, hr]
  · have hvalue :
        ((mantissa r * 2 ^ (exponent r).toNat : Nat) / (2 ^ (-exponent r).toNat : Nat) : ℚ) =
          mantissa r * 2 ^ exponent r := by
      rw [two_zpow]
      push_cast
      exact mul_div_assoc _ _ _
    rw [nearestRank_eq (Nat.mul_ne_zero hm (by positivity)) (by positivity)
      (hvalue ▸ suits_exponent), Nat.mul_assoc, Nat.mul_comm (2 ^ (-exponent r).toNat),
      roundQuotient_whole (by positivity), exponent, mantissa]
    by_cases h : r < binade
    · rw [if_pos h, if_pos h]
      simp
    · have hdiv : 1 ≤ r / binade := (Nat.one_le_div_iff (by decide)).mpr (not_lt.mp h)
      rw [if_neg h, if_neg h]
      have hcount : ((r / binade : Nat) - 1075 + 1074 : Int).toNat = r / binade - 1 := by omega
      rw [hcount, Nat.sub_mul, one_mul, ← Nat.add_assoc, Nat.sub_add_cancel, Nat.div_add_mod']
      exact Nat.le_mul_of_pos_left _ hdiv

/-! ## Digits -/

variable {digits : Nat} {scale : Int} {d : Decimal} {r : Nat}

private theorem digitCount_mul_ten (h : digits ≠ 0) :
    digitCount (digits * 10) = digitCount digits + 1 := by
  have happend := Nat.toDigits_append_toDigits (b := 10) (d := 0) (by decide)
    (Nat.pos_of_ne_zero h) (by decide)
  rw [digitCount, digitCount, Nat.mul_comm, ← Nat.add_zero (10 * digits), ← happend,
    List.length_append]
  rfl

/-- A zero at the end of the digits counts as a step of the scale. -/
theorem ofDecimal_mul_ten (negative : Bool) (h : digits ≠ 0) (scale : Int) :
    ofDecimal negative (digits * 10) scale = ofDecimal negative digits (scale + 1) := by
  have hten : digits * 10 ≠ 0 := by omega
  have htop : scale + (digitCount digits + 1 : Nat) = scale + 1 + digitCount digits := by omega
  have hratio : ofRatio negative (digits * 10 * 10 ^ scale.toNat) (10 ^ (-scale).toNat) =
      ofRatio negative (digits * 10 ^ (scale + 1).toNat) (10 ^ (-(scale + 1)).toNat) := by
    by_cases hs : 0 ≤ scale
    · have hup : (scale + 1).toNat = scale.toNat + 1 := by omega
      have hdown : (-(scale + 1)).toNat = (-scale).toNat := by omega
      rw [hup, hdown, Nat.pow_succ', Nat.mul_assoc]
    · have hup : (scale + 1).toNat = scale.toNat := by omega
      have hdown : (-scale).toNat = (-(scale + 1)).toNat + 1 := by omega
      rw [hup, hdown, Nat.pow_succ', Nat.mul_comm digits, Nat.mul_assoc, ofRatio, ofRatio,
        nearestRank_scale (by decide) _ (by positivity)]
  rw [ofDecimal, ofDecimal, if_neg h, if_neg hten, digitCount_mul_ten h, htop]
  simp only [Nat.pow_eq]
  rw [hratio]

/-- Zeros behind the digits of a decimal only shift its scale. -/
theorem ofDecimal_mul_pow_ten (negative : Bool) (h : digits ≠ 0) (n : Nat) (scale : Int) :
    ofDecimal negative (digits * 10 ^ n) scale = ofDecimal negative digits (scale + n) := by
  induction n generalizing scale with
  | zero => simp
  | succ n ih =>
    rw [Nat.pow_succ, ← Nat.mul_assoc, ofDecimal_mul_ten negative (by positivity), ih]
    congr 1
    omega

private theorem negate_ofRank (r : Nat) : (ofRank false r).negate = ofRank true r := by
  rw [ofRank, ofRank]
  split <;> rfl

/-- A decimal with a sign is nearest to the opposite value. -/
theorem ofDecimal_true (digits : Nat) (scale : Int) :
    ofDecimal true digits scale = (ofDecimal false digits scale).negate := by
  rw [ofDecimal, ofDecimal]
  split
  · rfl
  · dsimp only
    split
    · rfl
    · split
      · rfl
      · exact (negate_ofRank _).symm

/-- A decimal that reads back does so with either sign. -/
theorem ofDecimal_of_readsBack (h : d.readsBack r = true) (negative : Bool) :
    ofDecimal negative d.digits d.scale = ofRank negative r := by
  have h : ofDecimal false d.digits d.scale = ofRank false r := eq_of_beq h
  cases negative with
  | false => exact h
  | true => rw [ofDecimal_true, h, negate_ofRank]

private theorem readsBack_strip (h : d.readsBack r = true) : d.strip.readsBack r = true := by
  fun_induction Decimal.strip d with
  | case1 d hd ih =>
    apply ih
    have hdigits : d.digits / 10 ≠ 0 := by omega
    rw [Decimal.readsBack, ← ofDecimal_mul_ten false hdigits, Nat.div_mul_cancel (by omega)]
    exact h
  | case2 => exact h

private theorem digitCount_le_iff {n k : Nat} (hk : 0 < k) : digitCount n ≤ k ↔ n < 10 ^ k :=
  Nat.length_toDigits_le_iff (by decide) hk

private theorem mantissa_lt (r : Nat) : mantissa r < 2 ^ 53 := by
  have hmod : r % 2 ^ 52 < 2 ^ 52 := Nat.mod_lt _ (by positivity)
  simp only [mantissa, Nat.pow_eq]
  split <;> omega

private theorem exponent_bounds (hr : r < rankCount) : -1074 ≤ exponent r ∧ exponent r ≤ 971 := by
  simp only [rankCount, exponent, Nat.pow_eq] at hr ⊢
  split <;> omega

-- The exact value of a rank is neither too great nor too small to be read.
private theorem exactTop_bounds (hr : r < rankCount) (hm : mantissa r ≠ 0) :
    -326 ≤ min (exponent r) 0 +
        digitCount (mantissa r * 5 ^ (-exponent r).toNat * 2 ^ (exponent r).toNat) ∧
      min (exponent r) 0 +
        digitCount (mantissa r * 5 ^ (-exponent r).toNat * 2 ^ (exponent r).toNat) ≤ 310 := by
  obtain ⟨hleast, hmost⟩ := exponent_bounds hr
  have hmantissa := mantissa_lt r
  generalize mantissa r = m at hm hmantissa
  by_cases hq : 0 ≤ exponent r
  · have hfive : (-exponent r).toNat = 0 := by omega
    have htwo : (exponent r).toNat ≤ 971 := by omega
    have hcount : digitCount (m * 2 ^ (exponent r).toNat) ≤ 310 := by
      rw [digitCount_le_iff (by decide)]
      calc m * 2 ^ (exponent r).toNat < 2 ^ 53 * 2 ^ (exponent r).toNat := by gcongr
        _ ≤ 2 ^ 53 * 2 ^ 971 := by gcongr; decide
        _ < 10 ^ 310 := by decide +kernel
    rw [hfive, Nat.pow_zero, Nat.mul_one]
    omega
  · have htwo : (exponent r).toNat = 0 := by omega
    obtain ⟨k, hk⟩ : ∃ k : Nat, exponent r = -k := ⟨(-exponent r).toNat, by omega⟩
    have hfive : (-exponent r).toNat = k := by omega
    have hhigh : digitCount (m * 5 ^ k) ≤ k + 16 := by
      rw [digitCount_le_iff (by omega)]
      calc m * 5 ^ k < 10 ^ 16 * 5 ^ k := by gcongr; omega
        _ ≤ 10 ^ 16 * 10 ^ k := by gcongr; decide
        _ = 10 ^ (k + 16) := by ring
    have hlow : k ≤ digitCount (m * 5 ^ k) + 326 := by
      -- With fewer digits the value would lie below a power of ten that it reaches.
      by_contra h
      have hpos : 0 < digitCount (m * 5 ^ k) := Nat.length_toDigits_pos
      have hn : digitCount (m * 5 ^ k) ≤ k - 327 := by omega
      rw [digitCount_le_iff (by omega)] at hn
      have : 10 ^ (k - 327) ≤ m * 5 ^ k := by
        calc 10 ^ (k - 327) = 5 ^ (k - 327) * 2 ^ (k - 327) := by rw [← Nat.mul_pow]
          _ ≤ 5 ^ (k - 327) * 2 ^ 747 := by gcongr <;> omega
          _ ≤ 5 ^ (k - 327) * 5 ^ 327 := Nat.mul_le_mul_left _ (by decide +kernel)
          _ = 5 ^ k := by rw [← Nat.pow_add]; congr 1; omega
          _ ≤ m * 5 ^ k := Nat.le_mul_of_pos_left _ (Nat.pos_of_ne_zero hm)
      omega
    rw [hfive, htwo, Nat.pow_zero, Nat.mul_one]
    omega

/-- The exact value of a rank reads back. -/
theorem readsBack_exact (hr : r < rankCount) :
    Decimal.readsBack ⟨mantissa r * 5 ^ (-exponent r).toNat * 2 ^ (exponent r).toNat,
      min (exponent r) 0⟩ r = true := by
  rw [Decimal.readsBack, ofDecimal]
  dsimp only
  by_cases hm : mantissa r = 0
  · have hr : r = 0 := by simpa [hm, nearestRank_zero] using (nearestRank_exact r).symm
    rw [if_pos (by rw [hm, Nat.zero_mul, Nat.zero_mul]), hr]
    rfl
  · obtain ⟨hlow, hhigh⟩ := exactTop_bounds hr hm
    have hdigits :
        mantissa r * 5 ^ (-exponent r).toNat * 2 ^ (exponent r).toNat ≠ 0 := by positivity
    rw [if_neg hdigits, if_neg (not_lt.mpr hhigh), if_neg (not_lt.mpr hlow), ofRatio]
    simp only [Nat.pow_eq]
    rw [beq_iff_eq]
    congr 1
    have hexact := nearestRank_exact r
    by_cases hq : 0 ≤ exponent r
    · have hfive : (-exponent r).toNat = 0 := by omega
      rw [hfive, Nat.pow_zero] at hexact
      rw [min_eq_right hq, hfive]
      simpa using hexact
    · have htwo : (exponent r).toNat = 0 := by omega
      rw [htwo, Nat.pow_zero, Nat.mul_one] at hexact
      have hten : (10 : Nat) = 5 * 2 := rfl
      rw [min_eq_left (by omega), htwo, Nat.pow_zero, Nat.mul_one, Nat.mul_one, hten, Nat.mul_pow,
        Nat.mul_comm (mantissa r), nearestRank_scale (by positivity) _ (by positivity), hexact]

private theorem readsBack_of_onGrid {num den : Nat} (h : onGrid r num den scale = some d) :
    d.readsBack r = true := by
  rw [onGrid] at h
  exact List.find?_some (p := fun d : Decimal => d.readsBack r) h

/-- The shortest digits read back. -/
theorem readsBack_shortest (hr : r < rankCount) : (shortest r).readsBack r = true := by
  rw [shortest]
  apply readsBack_strip
  simp only [Nat.pow_eq]
  cases h : (List.range 17).findSome? fun (i : Nat) =>
      onGrid r (mantissa r * 2 ^ (exponent r).toNat) (2 ^ (-exponent r).toNat)
        (decimalTop (mantissa r * 2 ^ (exponent r).toNat) (2 ^ (-exponent r).toNat) - 1 -
          (i : Int)) with
  | none => exact readsBack_exact hr
  | some d =>
    obtain ⟨i, -, hi⟩ := List.exists_of_findSome?_eq_some h
    exact readsBack_of_onGrid hi

end BindGen.Double

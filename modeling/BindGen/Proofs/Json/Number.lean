import BindGen.Json.Writer
import BindGen.Proofs.Number.Shortest

/-!
# Reading numbers

The text of an integer, and the text of a float, is one lexeme of a JSON text, whatever follows it,
if that is no further digit, point or exponent. The lexeme holds the integer or the float.
-/

namespace BindGen.Json

open Double (ofDecimal)

variable {ds frac rest : List Char}

/-- Digits, of which there may be none. -/
def AreDigits (ds : List Char) : Prop := ∀ c ∈ ds, c.isDigit = true

/-- Whether a text ends here or goes on with what may stand behind a value. -/
def EndsValue : List Char → Prop
  | [] => True
  | c :: _ => c = ',' ∨ c = ']' ∨ c = '\x7d'

-- What follows is no digit.
private def NoDigit (rest : List Char) : Prop := ∀ c ∈ rest.head?, c.isDigit = false

private theorem EndsValue.noDigit (h : EndsValue rest) : NoDigit rest := by
  cases rest with
  | nil => simp [NoDigit]
  | cons c rest =>
    intro d hd
    obtain rfl := Option.some.inj hd
    rcases h with rfl | rfl | rfl <;> rfl

private theorem takeDigits_append (hd : AreDigits ds) (hr : NoDigit rest) :
    takeDigits (ds ++ rest) = (ds, rest) := by
  rw [takeDigits, List.takeWhile_append_of_pos hd, List.dropWhile_append_of_pos hd]
  cases rest with
  | nil => simp
  | cons c rest =>
    have hc : c.isDigit = false := hr c rfl
    simp [hc]

/-- The digits in front of the point: a zero alone, or digits of which the first is not zero. -/
structure AreWhole (ds : List Char) : Prop where
  digits : AreDigits ds
  nonempty : ds ≠ []
  first : ds = ['0'] ∨ ds.head? ≠ some '0'

private theorem integerDigits_append (hd : AreWhole ds) (hr : NoDigit rest) :
    integerDigits (ds ++ rest) = (ds, rest) := by
  rcases hd.first with rfl | hfirst
  · rfl
  · obtain ⟨c, cs, rfl⟩ := List.exists_cons_of_ne_nil hd.nonempty
    have hc : c ≠ '0' := fun h => hfirst (by rw [h]; rfl)
    rw [integerDigits.eq_def]
    split
    · next h => exact absurd (List.cons.inj h).1 hc
    · exact takeDigits_append hd.digits hr

private theorem noDigit_point (s : List Char) : NoDigit ('.' :: s) := by
  intro c hc
  obtain rfl := Option.some.inj hc
  rfl

private theorem noDigit_exponent (s : List Char) : NoDigit ('e' :: s) := by
  intro c hc
  obtain rfl := Option.some.inj hc
  rfl

private theorem fraction_append (hd : AreDigits frac) (hne : frac ≠ []) (hr : NoDigit rest) :
    fraction ('.' :: (frac ++ rest)) = (frac, rest) := by
  rw [fraction, takeDigits_append hd hr]
  simp [hne]

private theorem fraction_of_ends (h : EndsValue rest) : fraction rest = ([], rest) := by
  cases rest with
  | nil => rfl
  | cons c rest => rcases h with rfl | rfl | rfl <;> rfl

private theorem exponent?_of_ends (h : EndsValue rest) : exponent? rest = none := by
  cases rest with
  | nil => rfl
  | cons c rest => rcases h with rfl | rfl | rfl <;> rfl

private theorem exponent?_append {es : List Char} (hd : AreDigits es) (hne : es ≠ [])
    (h : EndsValue rest) (negative : Bool) :
    exponent? ('e' :: (if negative then '-' else '+') :: (es ++ rest)) =
      some (if negative then -(digitsValue es : Int) else digitsValue es, rest) := by
  have hsign : Text.takeSign ((if negative then '-' else '+') :: (es ++ rest)) =
      (negative, es ++ rest) := by
    cases negative <;> rfl
  rw [exponent?, hsign]
  dsimp only
  rw [takeDigits_append hd h.noDigit]
  simp [hne]

/-- Whole digits with a fraction. -/
theorem number_fraction {whole : List Char} (hw : AreWhole whole) (hf : AreDigits frac)
    (hne : frac ≠ []) (h : EndsValue rest) (negative : Bool) :
    number negative (whole ++ '.' :: (frac ++ rest)) =
      some (.scalar (.float (ofDecimal negative (digitsValue (whole ++ frac)) (-frac.length))),
        rest) := by
  rw [number, integerDigits_append hw (noDigit_point _)]
  dsimp only
  rw [fraction_append hf hne h.noDigit]
  dsimp only
  rw [exponent?_of_ends h]
  simp [hw.nonempty, hne]

/-- Whole digits with a fraction and an exponent. -/
theorem number_exponent {whole es : List Char} (hw : AreWhole whole) (hf : AreDigits frac)
    (he : AreDigits es) (hne : es ≠ []) (h : EndsValue rest) (negative down : Bool) :
    number negative (whole ++ (if frac = [] then [] else '.' :: frac) ++
        'e' :: (if down then '-' else '+') :: (es ++ rest)) =
      some (.scalar (.float (ofDecimal negative (digitsValue (whole ++ frac))
        ((if down then -(digitsValue es : Int) else digitsValue es) - frac.length))), rest) := by
  have hexponent := exponent?_append he hne h down
  by_cases hfrac : frac = []
  · rw [if_pos hfrac, List.append_nil, number, integerDigits_append hw (noDigit_exponent _)]
    dsimp only
    have hfraction (s : List Char) : fraction ('e' :: s) = ([], 'e' :: s) := rfl
    rw [hfraction, hexponent]
    simp [hw.nonempty, hfrac]
  · rw [if_neg hfrac, List.append_assoc, List.cons_append, number,
      integerDigits_append hw (noDigit_point _)]
    dsimp only
    rw [fraction_append hf hfrac (noDigit_exponent _)]
    dsimp only
    rw [hexponent]
    simp [hw.nonempty]

/-- Whole digits alone. -/
theorem number_whole (hw : AreWhole ds) (hlimit : ds.length ≤ Text.digitLimit) (h : EndsValue rest)
    (negative : Bool) :
    number negative (ds ++ rest) =
      some (.scalar (.int (if negative then -(digitsValue ds : Int) else digitsValue ds)),
        rest) := by
  rw [number, integerDigits_append hw h.noDigit]
  dsimp only
  rw [fraction_of_ends h]
  dsimp only
  rw [exponent?_of_ends h]
  simp [hw.nonempty, Nat.not_lt.mpr hlimit]

private theorem digitsValue_eq (ds : List Char) : digitsValue ds = Nat.ofDigitChars 10 ds 0 := by
  rw [digitsValue, Nat.ofDigitChars_eq_foldl]
  congr 1
  funext n c
  rw [Nat.mul_comm]
  rfl

private theorem digitsValue_toDigits (n : Nat) : digitsValue (Nat.toDigits 10 n) = n := by
  rw [digitsValue_eq, Nat.ofDigitChars_ten_toDigits]

private theorem digitsValue_zeros_append (n : Nat) (ds : List Char) :
    digitsValue (List.replicate n '0' ++ ds) = digitsValue ds := by
  rw [digitsValue_eq, digitsValue_eq, Nat.ofDigitChars_append, Nat.ofDigitChars_replicate_zero,
    Nat.mul_zero]

private theorem digitsValue_append_zeros (ds : List Char) (n : Nat) :
    digitsValue (ds ++ List.replicate n '0') = digitsValue ds * 10 ^ n := by
  rw [digitsValue_eq, digitsValue_eq, Nat.ofDigitChars_append, Nat.ofDigitChars_replicate_zero,
    Nat.mul_comm]

private theorem areDigits_toDigits (n : Nat) : AreDigits (Nat.toDigits 10 n) :=
  fun _ hc => Nat.isDigit_of_mem_toDigits (by decide) (by decide) hc

private theorem areDigits_zeros (n : Nat) : AreDigits (List.replicate n '0') := by
  intro c hc
  rw [List.eq_of_mem_replicate hc]
  rfl

private theorem AreDigits.append {es : List Char} (hd : AreDigits ds) (he : AreDigits es) :
    AreDigits (ds ++ es) :=
  List.forall_mem_append.mpr ⟨hd, he⟩

private theorem areDigits_drop (n k : Nat) : AreDigits ((Nat.toDigits 10 n).drop k) :=
  fun c hc => areDigits_toDigits n c (List.mem_of_mem_drop hc)

private theorem areDigits_padLeft (width n : Nat) :
    AreDigits (Double.padLeft width (Nat.toDigits 10 n)) :=
  (areDigits_zeros _).append (areDigits_toDigits n)

private theorem padLeft_ne_nil (width n : Nat) : Double.padLeft width (Nat.toDigits 10 n) ≠ [] := by
  simp [Double.padLeft]

-- The first digit of a positive natural is not zero.
private theorem head?_toDigits {n : Nat} (h : n ≠ 0) : (Nat.toDigits 10 n).head? ≠ some '0' := by
  induction n using Nat.strongRecOn with
  | ind n ih =>
    by_cases hn : n < 10
    · rw [Nat.toDigits_of_lt_base hn]
      intro hzero
      have hsub := Nat.toNat_digitChar_sub_48_of_lt_ten hn
      rw [Option.some.inj hzero] at hsub
      exact h hsub.symm
    · rw [Nat.toDigits_of_base_le (by decide) (by omega), List.head?_append_of_ne_nil _ (by simp)]
      exact ih (n / 10) (by omega) (by omega)

-- The first digits of a positive natural are whole.
private theorem areWhole_take {n k : Nat} (h : n ≠ 0) (hk : k ≠ 0) :
    AreWhole ((Nat.toDigits 10 n).take k) where
  digits c hc := areDigits_toDigits n c (List.mem_of_mem_take hc)
  nonempty := by simp [hk]
  first := Or.inr (by rw [List.head?_take, if_neg hk]; exact head?_toDigits h)

private theorem areWhole_toDigits (n : Nat) : AreWhole (Nat.toDigits 10 n) where
  digits := areDigits_toDigits n
  nonempty := by simp
  first := by
    by_cases h : n = 0
    · exact Or.inl (by rw [h]; rfl)
    · exact Or.inr (head?_toDigits h)

private theorem areWhole_zero : AreWhole ['0'] := areWhole_toDigits 0

private theorem areWhole_append_zeros {n : Nat} (h : n ≠ 0) (k : Nat) :
    AreWhole (Nat.toDigits 10 n ++ List.replicate k '0') where
  digits := (areDigits_toDigits n).append (areDigits_zeros k)
  nonempty := by simp
  first := Or.inr (by rw [List.head?_append_of_ne_nil _ (by simp)]; exact head?_toDigits h)

/-- The digits of a natural, with a sign in front of them or not. -/
theorem number_toDigits {n : Nat} (hn : Double.digitCount n ≤ Text.digitLimit) (h : EndsValue rest)
    (negative : Bool) :
    number negative (Nat.toDigits 10 n ++ rest) =
      some (.scalar (.int (if negative then -(n : Int) else n)), rest) := by
  rw [number_whole (areWhole_toDigits n) hn h, digitsValue_toDigits]

/-- A zero with a fraction. -/
theorem number_zero (h : EndsValue rest) (negative : Bool) :
    number negative ("0.0".toList ++ rest) = some (.scalar (.float (Double.zero negative)), rest) :=
  number_fraction areWhole_zero (areDigits_zeros 1) (List.cons_ne_nil _ _) h negative

section Layout

variable {n : Nat} (hn : n ≠ 0) (h : EndsValue rest) (negative : Bool) (scale : Int)
include hn h

-- Digits, zeros, and a zero behind the point.
private theorem number_padded (hs : 0 ≤ scale) :
    number negative (Nat.toDigits 10 n ++ List.replicate scale.toNat '0' ++ '.' :: '0' :: rest) =
      some (.scalar (.float (ofDecimal negative n scale)), rest) := by
  have hvalue : digitsValue (Nat.toDigits 10 n ++ List.replicate scale.toNat '0' ++ ['0']) =
      n * 10 ^ (scale.toNat + 1) := by
    have hzeros : ['0'] = List.replicate 1 '0' := rfl
    rw [List.append_assoc, hzeros, ← List.replicate_add, digitsValue_append_zeros,
      digitsValue_toDigits]
  have hscale : -((1 : Nat) : Int) + (scale.toNat + 1 : Nat) = scale := by omega
  have hread := number_fraction (areWhole_append_zeros hn scale.toNat) (areDigits_zeros 1)
    (List.cons_ne_nil _ _) h negative
  rw [List.length_replicate] at hread
  rw [← hscale, ← Double.ofDecimal_mul_pow_ten negative hn, ← hvalue, hscale]
  exact hread

-- Digits with the point between them.
private theorem number_split {k : Nat} (hk : k ≠ 0)
    (hs : scale + (Nat.toDigits 10 n).length = k) (hneg : scale < 0) :
    number negative ((Nat.toDigits 10 n).take k ++ '.' :: ((Nat.toDigits 10 n).drop k ++ rest)) =
      some (.scalar (.float (ofDecimal negative n scale)), rest) := by
  have hne : (Nat.toDigits 10 n).drop k ≠ [] := by
    rw [← List.length_pos_iff, List.length_drop]
    omega
  have hscale : -(((Nat.toDigits 10 n).drop k).length : Int) = scale := by
    rw [List.length_drop]
    omega
  rw [number_fraction (areWhole_take hn hk)
    (areDigits_drop n k) hne h, List.take_append_drop,
    digitsValue_toDigits, hscale]

omit hn in
-- A zero, and zeros between the point and the digits.
private theorem number_below {k : Nat} (hs : scale + (Nat.toDigits 10 n).length + k = 0) :
    number negative ('0' :: '.' :: (List.replicate k '0' ++ Nat.toDigits 10 n ++ rest)) =
      some (.scalar (.float (ofDecimal negative n scale)), rest) := by
  have hvalue : digitsValue ('0' :: (List.replicate k '0' ++ Nat.toDigits 10 n)) = n := by
    rw [← List.cons_append, ← List.replicate_succ, digitsValue_zeros_append, digitsValue_toDigits]
  have hscale : -((List.replicate k '0' ++ Nat.toDigits 10 n).length : Int) = scale := by
    rw [List.length_append, List.length_replicate]
    omega
  have hread := number_fraction areWhole_zero ((areDigits_zeros k).append (areDigits_toDigits n))
    (by simp) h negative
  rw [List.singleton_append, List.singleton_append, hvalue, hscale] at hread
  exact hread

-- One digit, the others behind the point, and an exponent.
private theorem number_scientific (width : Nat) {lead : Int}
    (hs : scale + (Nat.toDigits 10 n).length - 1 = lead) :
    number negative ((Nat.toDigits 10 n).take 1 ++
        (if (Nat.toDigits 10 n).drop 1 = [] then [] else '.' :: (Nat.toDigits 10 n).drop 1) ++
        'e' :: (if lead < 0 then '-' else '+') ::
          (Double.padLeft width (Nat.toDigits 10 lead.natAbs) ++ rest)) =
      some (.scalar (.float (ofDecimal negative n scale)), rest) := by
  have hvalue :
      (digitsValue (Double.padLeft width (Nat.toDigits 10 lead.natAbs)) : Int) = |lead| := by
    rw [Double.padLeft, digitsValue_zeros_append, digitsValue_toDigits, Int.natCast_natAbs]
  have hlead : (if lead < 0 then -|lead| else |lead|) = lead := by
    split
    · next hneg => rw [abs_of_neg hneg, neg_neg]
    · next hpos => exact abs_of_nonneg (not_lt.mp hpos)
  have hscale : lead - ((Nat.toDigits 10 n).drop 1).length = scale := by
    have : 0 < (Nat.toDigits 10 n).length := Nat.length_toDigits_pos
    rw [List.length_drop]
    omega
  have hread := number_exponent (areWhole_take hn one_ne_zero) (areDigits_drop n 1)
    (areDigits_padLeft width lead.natAbs) (padLeft_ne_nil width lead.natAbs) h negative
    (decide (lead < 0))
  simp only [decide_eq_true_eq] at hread
  rw [hread, List.take_append_drop, digitsValue_toDigits, hvalue, hlead, hscale]

end Layout

/-- A layout is read as the float that its decimal is nearest to. -/
theorem number_layout (f : Double.Notation) {d : Double.Decimal} (hd : d.digits ≠ 0)
    (h : EndsValue rest) (negative : Bool) :
    number negative (f.layout d ++ rest) =
      some (.scalar (.float (ofDecimal negative d.digits d.scale)), rest) := by
  obtain ⟨n, scale⟩ := d
  have hlength : 0 < (Nat.toDigits 10 n).length := Nat.length_toDigits_pos
  rw [Double.Notation.layout]
  dsimp only at hd ⊢
  split
  · split
    · next hs =>
      simpa using number_padded hd h negative scale hs
    · split
      · next hs _ =>
        simpa using number_split hd h negative scale (by omega) (by omega) (by omega)
      · next hs _ =>
        simpa using number_below h negative scale (by omega)
  · rw [← number_scientific hd h negative scale f.exponentWidth rfl]
    congr 1
    simp only [List.append_assoc, List.cons_append]
    rw [← List.append_assoc (List.take 1 _)]
    congr 1
    split
    · next hds =>
      rw [hds]
      rfl
    · next hds =>
      match hn : Nat.toDigits 10 n with
      | [] => rfl
      | [c] => rfl
      | c :: d :: cs => exact absurd hn (hds c d cs)

end BindGen.Json

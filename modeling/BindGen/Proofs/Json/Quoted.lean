import BindGen.Json.Writer
import BindGen.Value.Display

/-!
# Reading texts

A text in quotes is read as it was before its characters were escaped. Every escape is passed over
as a whole on the way to the closing quote, stands for one code unit or for a pair of surrogates,
and the units give the code points back, lone surrogates among them.
-/

namespace BindGen.Json

open CodePoint

/-- The first unit of a code point beyond sixteen bits. -/
def highUnit (n : CodePoint) : CodePoint := .ofNat (0xD800 + (n.val - 0x10000) / 0x400)

/-- The second unit of a code point beyond sixteen bits. -/
def lowUnit (n : CodePoint) : CodePoint := .ofNat (0xDC00 + (n.val - 0x10000) % 0x400)

/-- The units of sixteen bits that write a code point. -/
def units (n : CodePoint) : List CodePoint :=
  if n.val < 0x10000 then [n] else [highUnit n, lowUnit n]

private theorem hexDigits_succ {width : Nat} (hw : width ≠ 0) (n : Nat) :
    hexDigits (width + 1) n = hexDigits width (n / 16) ++ [Nat.digitChar (n % 16)] := by
  rw [hexDigits, hexDigits]
  by_cases hn : n < 16
  · obtain ⟨w, rfl⟩ := Nat.exists_eq_succ_of_ne_zero hw
    rw [Nat.toDigits_of_lt_base hn, Nat.div_eq_of_lt hn, Nat.toDigits_zero, Nat.mod_eq_of_lt hn]
    congr 1
    exact List.replicate_succ'
  · rw [Nat.toDigits_of_base_le (b := 16) (by decide) (Nat.le_of_not_lt hn), List.length_append,
      ← List.append_assoc]
    congr 2
    simp

-- The four digits of a 16-bit unit.
private theorem hexDigits_four {n : Nat} (h : n < 0x10000) :
    hexDigits 4 n = [Nat.digitChar (n / 16 / 16 / 16), Nat.digitChar (n / 16 / 16 % 16),
      Nat.digitChar (n / 16 % 16), Nat.digitChar (n % 16)] := by
  have hone : hexDigits 1 (n / 16 / 16 / 16) = [Nat.digitChar (n / 16 / 16 / 16)] := by
    rw [hexDigits, Nat.toDigits_of_lt_base (by omega)]
    rfl
  rw [hexDigits_succ (by decide), hexDigits_succ (by decide), hexDigits_succ (by decide), hone]
  rfl

private theorem hexValue?_digitChar {n : Nat} (h : n < 16) :
    hexValue? (Nat.digitChar n) = some n := by
  have hall : ∀ n : Fin 16, hexValue? (Nat.digitChar n) = some n.val := by decide
  exact hall ⟨n, h⟩

private theorem digitChar_plain {n : Nat} (h : n < 16) :
    Nat.digitChar n ≠ '"' ∧ Nat.digitChar n ≠ '\\' := by
  have hall : ∀ n : Fin 16, Nat.digitChar n ≠ '"' ∧ Nat.digitChar n ≠ '\\' := by decide
  exact hall ⟨n, h⟩

private theorem hexQuad?_digits {n : Nat} (h : n < 0x10000) :
    hexQuad? (Nat.digitChar (n / 16 / 16 / 16)) (Nat.digitChar (n / 16 / 16 % 16))
      (Nat.digitChar (n / 16 % 16)) (Nat.digitChar (n % 16)) = some n := by
  rw [hexQuad?, hexValue?_digitChar (by omega), hexValue?_digitChar (by omega),
    hexValue?_digitChar (by omega), hexValue?_digitChar (by omega)]
  change some _ = some n
  congr 1
  omega

-- A piece of the body of a text that is passed over as it stands.
private def Passes (piece : List Char) : Prop :=
  ∀ s, textBody (piece ++ s) = (textBody s).map fun (body, after) => (piece ++ body, after)

private theorem passes_nil : Passes [] := by
  intro s
  simp

private theorem Passes.append {p q : List Char} (hp : Passes p) (hq : Passes q) :
    Passes (p ++ q) := by
  intro s
  rw [List.append_assoc, hp, hq, Option.map_map]
  congr 1
  funext x
  simp

private theorem passes_char {c : Char} (h : c ≠ '"') (h' : c ≠ '\\') : Passes [c] := by
  intro s
  rw [List.singleton_append, textBody.eq_def]
  split
  · next hc => cases hc
  · next hc => exact absurd (List.cons.inj hc).1 h
  · next hc => exact absurd (List.cons.inj hc).1 h'
  · next hc =>
    obtain ⟨rfl, rfl⟩ := List.cons.inj hc
    rfl

private theorem passes_escape (c : Char) : Passes ['\\', c] :=
  fun _ => rfl

private theorem passes_unitEscape {n : Nat} (h : n < 0x10000) : Passes (unitEscape n) := by
  have hdigit {n : Nat} (h : n < 16) : Passes [Nat.digitChar n] :=
    passes_char (digitChar_plain h).1 (digitChar_plain h).2
  rw [unitEscape, hexDigits_four h]
  exact (passes_escape 'u').append ((hdigit (by omega)).append ((hdigit (by omega)).append
    ((hdigit (by omega)).append (hdigit (by omega)))))

-- A piece of the body of a text that stands for units.
private def StandsFor (piece : List Char) (ns : List CodePoint) : Prop :=
  ∀ s, codePoints (piece ++ s) = (codePoints s).map (ns ++ ·)

private theorem standsFor_nil : StandsFor [] [] := by
  intro s
  simp

private theorem StandsFor.append {p q : List Char} {ms ns : List CodePoint} (hp : StandsFor p ms)
    (hq : StandsFor q ns) : StandsFor (p ++ q) (ms ++ ns) := by
  intro s
  rw [List.append_assoc, hp, hq, Option.map_map]
  congr 1
  funext x
  simp

private theorem standsFor_escape {c e : Char} (he : escaped? e = some c) (hu : e ≠ 'u') :
    StandsFor ['\\', e] [ofChar c] := by
  intro s
  rw [List.cons_append, List.singleton_append, codePoints.eq_def]
  split
  · next h => cases h
  · next h => exact absurd (List.cons.inj (List.cons.inj h).2).1 hu
  · next h =>
    obtain ⟨rfl, rfl⟩ := List.cons.inj (List.cons.inj h).2
    rw [he]
    cases codePoints s <;> rfl
  · next hne h =>
    obtain ⟨rfl, rfl⟩ := List.cons.inj h
    exact absurd rfl (hne e s rfl)

private theorem standsFor_unitEscape {n : Nat} (h : n < 0x10000) :
    StandsFor (unitEscape n) [.ofNat n] := by
  intro s
  rw [unitEscape, hexDigits_four h]
  simp only [List.cons_append, List.nil_append, codePoints]
  rw [hexQuad?_digits h]
  cases codePoints s <;> rfl

private theorem standsFor_point {n : CodePoint} (h : n.val < 0x10000) :
    StandsFor (unitEscape n.val) [n] := by
  have hn : CodePoint.ofNat n.val = n := Fin.ext (val_ofNat n.isLt)
  have hspec := standsFor_unitEscape h
  rwa [hn] at hspec

private theorem standsFor_char {c : Char} (h : c ≠ '\\') (hc : 0x20 ≤ c.toNat) :
    StandsFor [c] [ofChar c] := by
  intro s
  rw [List.singleton_append, codePoints.eq_def]
  split
  · next hs => cases hs
  · next hs => exact absurd (List.cons.inj hs).1 h
  · next hs => exact absurd (List.cons.inj hs).1 h
  · next hs =>
    obtain ⟨rfl, rfl⟩ := List.cons.inj hs
    rw [if_neg (by simp [h, Nat.not_lt.mpr hc])]
    cases codePoints s <;> rfl

-- An escaped character is passed over and stands for the units of the character.
private theorem escapeChar_spec (c : Char) :
    Passes (escapeChar c) ∧ StandsFor (escapeChar c) (units (ofChar c)) := by
  have hval : (ofChar c).val = c.toNat := rfl
  have hescape {c e : Char} (he : escaped? e = some c) (hu : e ≠ 'u') (hc : c.toNat < 0x10000) :
      Passes ['\\', e] ∧ StandsFor ['\\', e] (units (ofChar c)) := by
    rw [units, if_pos (show (ofChar c).val < 0x10000 from hc)]
    exact ⟨passes_escape e, standsFor_escape he hu⟩
  rw [escapeChar]
  dsimp only
  split
  · next h => rw [h]; exact hescape rfl (by decide) (by decide)
  split
  · next h => rw [h]; exact hescape rfl (by decide) (by decide)
  split
  · next h => rw [h]; exact hescape rfl (by decide) (by decide)
  split
  · next h => rw [h]; exact hescape rfl (by decide) (by decide)
  split
  · next h => rw [h]; exact hescape rfl (by decide) (by decide)
  split
  · next h => rw [h]; exact hescape rfl (by decide) (by decide)
  split
  · next h => rw [h]; exact hescape rfl (by decide) (by decide)
  split
  · next hquote hslash _ _ _ _ _ h =>
    rw [units, hval, if_pos (by omega)]
    exact ⟨passes_char hquote hslash, standsFor_char hslash h.1⟩
  split
  · next h =>
    have hspec := standsFor_point (n := ofChar c) h
    rw [units, hval, if_pos h]
    exact ⟨passes_unitEscape h, hspec⟩
  · next h =>
    have hlt : c.toNat < 0x110000 := (ofChar c).isLt
    rw [units, hval, if_neg h, highUnit, lowUnit, hval]
    refine ⟨(passes_unitEscape (by omega)).append (passes_unitEscape (by omega)), ?_⟩
    have hhigh := standsFor_unitEscape (n := 0xD800 + (c.toNat - 0x10000) / 0x400)
      (by omega)
    have hlow := standsFor_unitEscape (n := 0xDC00 + (c.toNat - 0x10000) % 0x400)
      (by omega)
    have hpair := hhigh.append hlow
    rwa [List.singleton_append] at hpair

-- A surrogate has less than sixteen bits.
private theorem lt_of_char?_eq_none {n : CodePoint} (h : n.char? = none) : n.val < 0x10000 := by
  have hsurrogate := char?_eq_none_iff.mp h
  simp only [isHigh, isLow, Bool.and_eq_true, decide_eq_true_eq] at hsurrogate
  omega

-- An escaped code point is passed over and stands for its units.
private theorem escapePoint_spec (n : CodePoint) :
    Passes (escapePoint n) ∧ StandsFor (escapePoint n) (units n) := by
  rw [escapePoint]
  split
  · next c h =>
    rw [eq_ofChar_of_char? h]
    exact escapeChar_spec c
  · next h =>
    have hlt := lt_of_char?_eq_none h
    rw [units, if_pos hlt]
    exact ⟨passes_unitEscape hlt, standsFor_point hlt⟩

private theorem join_offsets (base high low a b : Nat) :
    base + (high + a - high) * 0x400 + (low + b - low) = base + (a * 0x400 + b) := by
  rw [Nat.add_sub_cancel_left, Nat.add_sub_cancel_left, Nat.add_assoc]

-- A code point beyond sixteen bits is written as a pair of surrogates.
private theorem surrogates_spec {n : CodePoint} (h : ¬n.val < 0x10000) :
    isHigh (highUnit n) = true ∧ isLow (lowUnit n) = true ∧
      join (highUnit n) (lowUnit n) = n := by
  have hlt := n.isLt
  have hhigh : (highUnit n).val = 0xD800 + (n.val - 0x10000) / 0x400 := by
    rw [highUnit, val_ofNat]
    omega
  have hlow : (lowUnit n).val = 0xDC00 + (n.val - 0x10000) % 0x400 := by
    rw [lowUnit, val_ofNat]
    omega
  refine ⟨?_, ?_, ?_⟩
  · rw [isHigh, hhigh, Bool.and_eq_true, decide_eq_true_eq, decide_eq_true_eq]
    omega
  · rw [isLow, hlow, Bool.and_eq_true, decide_eq_true_eq, decide_eq_true_eq]
    omega
  · have hjoin := join_offsets 0x10000 0xD800 0xDC00 ((n.val - 0x10000) / 0x400)
      ((n.val - 0x10000) % 0x400)
    rw [Nat.div_add_mod', Nat.add_sub_cancel' (Nat.le_of_not_lt h)] at hjoin
    apply Fin.ext
    rw [join, hhigh, hlow, hjoin, val_ofNat hlt]

-- The units of a code point start with a second surrogate only if it is one.
private theorem units_starts (n : CodePoint) (rest : List CodePoint) :
    ∃ m ms, units n ++ rest = m :: ms ∧ (isLow m = true → m = n) := by
  rw [units]
  split
  · exact ⟨n, rest, rfl, fun _ => rfl⟩
  · next h =>
    refine ⟨highUnit n, lowUnit n :: rest, rfl, fun hlow => ?_⟩
    have hhigh := (surrogates_spec h).1
    simp only [isHigh, isLow, Bool.and_eq_true, decide_eq_true_eq] at hhigh hlow
    omega

-- The units of code points give the code points back.
private theorem joinPairs_units {ns : List CodePoint} (h : areJoined ns = true) :
    joinPairs (ns.flatMap units) = ns := by
  induction ns with
  | nil => rfl
  | cons n ns ih =>
    rw [List.flatMap_cons]
    by_cases hn : n.val < 0x10000
    · rw [units, if_pos hn, List.singleton_append]
      cases ns with
      | nil => rfl
      | cons m ns =>
        rw [areJoined, Bool.and_eq_true] at h
        have hih := ih h.2
        obtain ⟨u, us, hus, hlow⟩ := units_starts m (ns.flatMap units)
        have hpair : ¬(isHigh n && isLow u) = true := by
          intro hpair
          rw [Bool.and_eq_true] at hpair
          rw [← hlow hpair.2, hpair.1, hpair.2] at h
          exact Bool.noConfusion h.1
        rw [List.flatMap_cons, hus] at hih ⊢
        rw [joinPairs, if_neg hpair, hih]
    · obtain ⟨hhigh, hlow, hjoin⟩ := surrogates_spec hn
      have hrest : areJoined ns = true := by
        cases ns with
        | nil => rfl
        | cons m ns =>
          rw [areJoined, Bool.and_eq_true] at h
          exact h.2
      rw [units, if_neg hn, List.cons_append, List.singleton_append, joinPairs, hhigh, hlow, hjoin,
        ih hrest]
      rfl

/-- A text is read as it was written, whatever follows it. -/
theorem quotedText_escaped (t : LooseText) (rest : List Char) :
    quotedText (t.points.flatMap escapePoint ++ '"' :: rest) = some (.scalar t.scalar, rest) := by
  generalize hs : t.points.flatMap escapePoint = s
  have hspec : Passes s ∧ StandsFor s (t.points.flatMap units) := by
    rw [← hs]
    generalize t.points = ns
    induction ns with
    | nil => exact ⟨passes_nil, standsFor_nil⟩
    | cons n ns ih =>
      obtain ⟨hp, hs⟩ := escapePoint_spec n
      exact ⟨hp.append ih.1, hs.append ih.2⟩
  have hbody : textBody (s ++ '"' :: rest) = some (s, rest) := by
    rw [hspec.1, textBody, Option.map_some]
    dsimp only
    rw [List.append_nil]
  have hcodes : codePoints s = some (t.points.flatMap units) := by
    have := hspec.2 []
    rwa [List.append_nil, codePoints, Option.map_some, List.append_nil] at this
  have hread : LooseText.ofPoints (t.points.flatMap units) = t := by
    apply LooseText.points_injective
    rw [LooseText.points_ofPoints, joinPairs_units t.areJoined_points]
  rw [quotedText, hbody]
  change (codePoints s >>= _) = _
  rw [hcodes, ← hread]
  simp [hread]

end BindGen.Json

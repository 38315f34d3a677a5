/-!
# Broken texts

A text can be written in units of sixteen bits, and then two surrogates stand for one character. A
surrogate without its partner stands for none, so what it is written in is no text of characters.
Such a text is broken. It is kept as its code points, those of surrogates among them; a pair of
surrogates is never left apart. `LooseText` is a text of either sort.
-/

namespace BindGen

/-- The number of a character or of a surrogate. -/
abbrev CodePoint := Fin 0x110000

namespace CodePoint

private theorem toNat_lt (c : Char) : c.toNat < 0x110000 := by
  have h : c.toNat.isValidChar := c.valid
  rw [Nat.isValidChar] at h
  omega

/-- The code point of a number, counted round behind the last one. -/
def ofNat (n : Nat) : CodePoint := Fin.ofNat 0x110000 n

/-- The code point of a number has that number. -/
theorem val_ofNat {n : Nat} (h : n < 0x110000) : (ofNat n).val = n := Nat.mod_eq_of_lt h

/-- The code point of a character. -/
def ofChar (c : Char) : CodePoint := ⟨c.toNat, toNat_lt c⟩

/-- The character of a code point; surrogates are none. -/
def char? (n : CodePoint) : Option Char :=
  if h : n.val.isValidChar then some (Char.ofNatAux n.val h) else none

/-- Whether a code point is the first one of a pair of surrogates. -/
def isHigh (n : CodePoint) : Bool := 0xD800 ≤ n.val && n.val < 0xDC00

/-- Whether a code point is the second one of a pair of surrogates. -/
def isLow (n : CodePoint) : Bool := 0xDC00 ≤ n.val && n.val < 0xE000

/-- The code point that a pair of surrogates stands for. -/
def join (high low : CodePoint) : CodePoint :=
  ofNat (0x10000 + (high.val - 0xD800) * 0x400 + (low.val - 0xDC00))

/-- Code points with each pair of surrogates put together. -/
def joinPairs : List CodePoint → List CodePoint
  | [] => []
  | [n] => [n]
  | high :: low :: rest =>
    if isHigh high && isLow low then join high low :: joinPairs rest
    else high :: joinPairs (low :: rest)

/-- Whether no two surrogates that stand beside each other are a pair. -/
def areJoined : List CodePoint → Bool
  | high :: low :: rest => !(isHigh high && isLow low) && areJoined (low :: rest)
  | _ => true

/-- A code point is that of a character or of a surrogate. -/
theorem char?_eq_none_iff {n : CodePoint} :
    n.char? = none ↔ isHigh n = true ∨ isLow n = true := by
  have hlt := n.isLt
  have hvalid : n.char? = none ↔ ¬n.val.isValidChar := by
    by_cases h : n.val.isValidChar
    · rw [char?, dif_pos h]
      exact iff_of_false (Option.some_ne_none _) (not_not_intro h)
    · rw [char?, dif_neg h]
      exact iff_of_true rfl h
  rw [hvalid, isHigh, isLow, Nat.isValidChar]
  simp only [Bool.and_eq_true, decide_eq_true_eq]
  omega

/-- A character is found by its code point. -/
@[simp] theorem char?_ofChar (c : Char) : (ofChar c).char? = some c := by
  have h : (ofChar c).val.isValidChar := c.valid
  rw [char?, dif_pos h]
  rfl

/-- The code point of a character is that of no other one. -/
theorem eq_ofChar_of_char? {n : CodePoint} {c : Char} (h : n.char? = some c) : n = ofChar c := by
  by_cases hn : n.val.isValidChar
  · rw [char?, dif_pos hn] at h
    obtain rfl := Option.some.inj h
    rfl
  · rw [char?, dif_neg hn] at h
    cases h

/-- Code points of characters alone are those of one text. -/
theorem mapM_char?_eq_some_iff {ns : List CodePoint} {s : List Char} :
    ns.mapM char? = some s ↔ ns = s.map ofChar := by
  induction ns generalizing s with
  | nil => cases s <;> simp
  | cons n ns ih =>
    cases s with
    | nil => simp [List.mapM_cons, Option.bind_eq_some_iff]
    | cons c s =>
      simp only [List.mapM_cons, Option.bind_eq_bind, Option.bind_eq_some_iff, Option.pure_def,
        Option.some.injEq, List.cons.injEq, List.map_cons, ih]
      constructor
      · rintro ⟨_, hn, _, rfl, rfl, rfl⟩
        exact ⟨eq_ofChar_of_char? hn, rfl⟩
      · rintro ⟨rfl, rfl⟩
        exact ⟨c, char?_ofChar c, s, rfl, rfl, rfl⟩

/-- No character has the code point of a surrogate. -/
theorem not_surrogate_ofChar (c : Char) : isHigh (ofChar c) = false ∧ isLow (ofChar c) = false := by
  have h : ¬(isHigh (ofChar c) = true ∨ isLow (ofChar c) = true) := by
    rw [← char?_eq_none_iff, char?_ofChar]
    exact Option.some_ne_none c
  simpa using h

/-- The code point that a pair stands for is not that of a surrogate. -/
theorem not_surrogate_join {high low : CodePoint} (hh : isHigh high = true)
    (hl : isLow low = true) :
    isHigh (join high low) = false ∧ isLow (join high low) = false := by
  simp only [isHigh, isLow, Bool.and_eq_true, decide_eq_true_eq] at hh hl
  have hval : (join high low).val =
      0x10000 + (high.val - 0xD800) * 0x400 + (low.val - 0xDC00) := by
    rw [join, val_ofNat]
    omega
  simp only [isHigh, isLow, Bool.and_eq_false_iff, decide_eq_false_iff_not, hval]
  omega

/-- A text of characters has no pairs of surrogates. -/
theorem areJoined_map_ofChar (s : List Char) : areJoined (s.map ofChar) = true := by
  induction s with
  | nil => rfl
  | cons c s ih =>
    cases s with
    | nil => rfl
    | cons d s => simpa [areJoined, not_surrogate_ofChar] using ih

/-- Where nothing is left to be put together, nothing changes. -/
theorem joinPairs_of_areJoined {ns : List CodePoint} (h : areJoined ns = true) :
    joinPairs ns = ns := by
  fun_induction joinPairs ns with
  | case1 => rfl
  | case2 => rfl
  | case3 high low rest hpair => simp [areJoined, hpair] at h
  | case4 high low rest hpair ih =>
    simp only [areJoined, Bool.and_eq_true] at h
    rw [ih h.2]

-- Putting pairs together behind a code point makes no new second surrogate beside it.
private theorem isLow_head_joinPairs {n m : CodePoint} {ns ms : List CodePoint}
    (h : joinPairs (n :: ns) = m :: ms) (hm : isLow m = true) : m = n := by
  cases ns with
  | nil => exact (List.cons.inj h).1.symm
  | cons low rest =>
    rw [joinPairs] at h
    split at h
    · next hpair =>
      rw [Bool.and_eq_true] at hpair
      rw [← (List.cons.inj h).1, (not_surrogate_join hpair.1 hpair.2).2] at hm
      cases hm
    · exact (List.cons.inj h).1.symm

private theorem areJoined_cons {n : CodePoint} {ns : List CodePoint} (hns : areJoined ns = true)
    (h : ∀ m ms, ns = m :: ms → isLow m = true → isHigh n = false) :
    areJoined (n :: ns) = true := by
  cases ns with
  | nil => rfl
  | cons m ms =>
    rw [areJoined, hns, Bool.and_true, Bool.not_eq_true', Bool.and_eq_false_iff]
    cases hm : isLow m with
    | false => exact .inr rfl
    | true => exact .inl (h m ms rfl hm)

/-- Once pairs are put together, none is left. -/
theorem areJoined_joinPairs (ns : List CodePoint) : areJoined (joinPairs ns) = true := by
  fun_induction joinPairs ns with
  | case1 => rfl
  | case2 => rfl
  | case3 high low rest hpair ih =>
    rw [Bool.and_eq_true] at hpair
    exact areJoined_cons ih fun _ _ _ _ => (not_surrogate_join hpair.1 hpair.2).1
  | case4 high low rest hpair ih =>
    refine areJoined_cons ih fun m ms hms hm => ?_
    obtain rfl := isLow_head_joinPairs hms hm
    simpa [hm] using hpair

end CodePoint

/-- A text that holds a surrogate without its partner. -/
structure BrokenText where
  points : List CodePoint
  joined : CodePoint.areJoined points = true
  isBroken : points.mapM CodePoint.char? = none
deriving DecidableEq

/-- A broken text is not empty. -/
theorem BrokenText.points_ne_nil (t : BrokenText) : t.points ≠ [] := by
  intro h
  have hnone := t.isBroken
  rw [h] at hnone
  cases hnone

/-- A text of characters, or a broken one. -/
inductive LooseText where
  | proper (s : String)
  | broken (t : BrokenText)
deriving DecidableEq

namespace LooseText

open CodePoint

/-- A text is a proper one. -/
instance : Coe String LooseText := ⟨proper⟩

/-- The code points of a text. -/
def points : LooseText → List CodePoint
  | proper s => s.toList.map ofChar
  | broken t => t.points

/-- The text that code points write. -/
def ofPoints (ns : List CodePoint) : LooseText :=
  match h : (joinPairs ns).mapM char? with
  | some s => proper (String.ofList s)
  | none => broken ⟨joinPairs ns, areJoined_joinPairs ns, h⟩

/-- No text leaves a pair of surrogates apart. -/
theorem areJoined_points (t : LooseText) : areJoined t.points = true := by
  cases t with
  | proper s => exact areJoined_map_ofChar s.toList
  | broken t => exact t.joined

/-- A text has the code points that it is read from, but for their pairs of surrogates. -/
theorem points_ofPoints (ns : List CodePoint) : (ofPoints ns).points = joinPairs ns := by
  rw [ofPoints]
  split
  · next s h =>
    rw [points, String.toList_ofList]
    exact (mapM_char?_eq_some_iff.mp h).symm
  · rfl

/-- A text is read from its own code points. -/
theorem ofPoints_points (t : LooseText) : ofPoints t.points = t := by
  have hjoined := joinPairs_of_areJoined t.areJoined_points
  rw [ofPoints]
  split
  · next cs h =>
    rw [hjoined] at h
    cases t with
    | proper s =>
      rw [points, mapM_char?_eq_some_iff.mpr rfl] at h
      rw [← Option.some.inj h, String.ofList_toList]
    | broken t =>
      rw [points, t.isBroken] at h
      cases h
  · next h =>
    rw [hjoined] at h
    cases t with
    | proper s =>
      rw [points, mapM_char?_eq_some_iff.mpr rfl] at h
      cases h
    | broken t =>
      obtain ⟨ns, _, _⟩ := t
      simpa [points] using hjoined

/-- Texts with the same code points are the same. -/
theorem points_injective {t u : LooseText} (h : t.points = u.points) : t = u := by
  rw [← ofPoints_points t, h, ofPoints_points]

end LooseText

/-- Every run of characters replaced, where surrogates end a run; the run so far stands last
first. -/
def replacedRuns (f : List Char → List Char) (run : List Char) :
    List CodePoint → List CodePoint
  | [] => (f run.reverse).map .ofChar
  | n :: rest =>
    match n.char? with
    | some c => replacedRuns f (c :: run) rest
    | none => (f run.reverse).map .ofChar ++ n :: replacedRuns f [] rest

/-- The text with every run of characters between its surrogates replaced. -/
def BrokenText.mapRuns (t : BrokenText) (f : List Char → List Char) : LooseText :=
  .ofPoints (replacedRuns f [] t.points)

end BindGen

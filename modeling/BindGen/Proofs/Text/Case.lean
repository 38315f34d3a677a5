import BindGen.Text.Case
import Mathlib.Data.Nat.ModEq

/-!
# Texts in lower case

Every character has a lower-case form that is not empty, and the length of this form does not depend
on the characters around it. A text that goes on beyond another one is therefore longer in lower
case. No lower-case form has a lower-case form of its own: a text in lower case stays as it is.
-/

namespace BindGen.Text

/-! ## Length -/

private theorem mapped_ne_nil {special : List (Nat × List Nat)} {runs : List CaseRun}
    (h : ∀ e ∈ special, e.2 ≠ []) (n : Nat) : mapped special runs n ≠ [] := by
  rw [mapped]
  split
  · next image hfound =>
    rw [ne_eq, List.map_eq_nil_iff]
    exact h _ (List.mem_of_find?_eq_some hfound)
  · split <;> exact List.cons_ne_nil _ _

private theorem lowerChar_ne_nil (c : Char) : lowerChar c ≠ [] := by
  rw [lowerChar]
  split
  · exact List.cons_ne_nil _ _
  · exact mapped_ne_nil (by decide) _

/-- The lower-case form of a character inside a word, which is as long as its form at the end. -/
def lowerInside (c : Char) : List Char := if c = 'Σ' then ['σ'] else lowerChar c

private theorem lowerInside_ne_nil (c : Char) : lowerInside c ≠ [] := by
  rw [lowerInside]
  split
  · exact List.cons_ne_nil _ _
  · exact lowerChar_ne_nil c

private theorem length_lowerAfter (before s : List Char) :
    (lowerAfter before s).length = (s.flatMap lowerInside).length := by
  induction s generalizing before with
  | nil => rfl
  | cons c s ih =>
    rw [lowerAfter, List.length_append, ih, List.flatMap_cons, List.length_append, lowerInside]
    split
    · split <;> rfl
    · rfl

private theorem length_lower (s : List Char) : (lower s).length = (s.flatMap lowerInside).length :=
  length_lowerAfter [] s

/-- A text in lower case is that of no proper beginning of the text. -/
theorem eq_nil_of_lower_append {s t : List Char} (h : lower (s ++ t) = lower s) : t = [] := by
  have hlength := congrArg List.length h
  rw [length_lower, length_lower, List.flatMap_append, List.length_append, Nat.add_eq_left,
    List.length_eq_zero_iff, List.flatMap_eq_nil_iff] at hlength
  exact List.eq_nil_iff_forall_not_mem.mpr fun c hc => lowerInside_ne_nil c (hlength c hc)

/-! ## Lower case of lower case -/

namespace CaseRun

/-- Whether no counterpart of the first run is a member of the second: the counterparts are before
it, or behind it, or all of them are between its members. -/
def avoids (r r' : CaseRun) : Bool :=
  let first := (r.first + r.shift).toNat
  let last := (r.last + r.shift).toNat
  last.blt r'.first || r'.last.blt first ||
    ((r.first.beq r.last || (r.step % r'.step).beq 0) &&
      !(first % r'.step).beq (r'.first % r'.step))

private theorem counterpart?_of_avoids {r r' : CaseRun} (h : r.avoids r' = true)
    (hfirst : 0 ≤ (r.first : Int) + r.shift) {n m : Nat} (hm : r.counterpart? n = some m) :
    r'.counterpart? m = none := by
  rw [counterpart?] at hm
  split at hm
  · next hn =>
    obtain ⟨hfrom, hto, hstep⟩ := hn
    obtain rfl := Option.some.inj hm
    rw [counterpart?, if_neg]
    rintro ⟨hfrom', hto', hstep'⟩
    simp only [avoids, Bool.or_eq_true, Bool.and_eq_true, Bool.not_eq_true', Nat.blt_eq,
      Nat.beq_eq] at h
    rcases h with (hbefore | hbehind) | ⟨heven, hbetween⟩
    · omega
    · omega
    · -- the counterpart is as far from the first one as the member is from the first member
      have hshifted : ((n : Int) + r.shift).toNat =
          ((r.first : Int) + r.shift).toNat + (n - r.first) := by omega
      have hmultiple : r'.step ∣ n - r.first := by
        rcases heven with hsingle | heven
        · rw [Nat.sub_eq_zero_of_le (by omega)]
          exact dvd_zero _
        · exact (Nat.dvd_of_mod_eq_zero heven).trans (Nat.dvd_of_mod_eq_zero hstep)
      have hmember := (Nat.modEq_iff_dvd' hfrom').mpr (Nat.dvd_of_mod_eq_zero hstep')
      have hcounterpart : Nat.ModEq r'.step ((r.first : Int) + r.shift).toNat
          ((n : Int) + r.shift).toNat := by
        refine (Nat.modEq_iff_dvd' (by omega)).mpr ?_
        rwa [hshifted, Nat.add_sub_cancel_left]
      exact Nat.ne_of_beq_eq_false hbetween (hcounterpart.trans hmember.symm)
  · cases hm

end CaseRun

/-- A code point without a lower-case counterpart. -/
structure Unmapped (n : Nat) : Prop where
  special : ∀ e ∈ lowerSpecial, e.1 ≠ n
  runs : ∀ r ∈ lowerRuns, r.counterpart? n = none

private theorem lowerRuns_avoid : lowerRuns.all (fun r => lowerRuns.all r.avoids) = true := by
  decide +kernel

private theorem lowerRuns_avoid_special :
    lowerRuns.all (fun r => lowerSpecial.all fun e => r.avoids ⟨e.1, e.1, 1, 0⟩) = true := by
  decide +kernel

private theorem lowerRuns_first : ∀ r ∈ lowerRuns, 0 ≤ (r.first : Int) + r.shift := by
  decide +kernel

private theorem unmapped_special :
    ∀ e ∈ lowerSpecial, ∀ n ∈ e.2, (lowerSpecial.all fun e' => e'.1 != n) = true ∧
      (lowerRuns.all fun r => (r.counterpart? n).isNone) = true := by
  decide +kernel

namespace Unmapped

variable {n : Nat}

private theorem of_special {e : Nat × List Nat} (he : e ∈ lowerSpecial) (hn : n ∈ e.2) :
    Unmapped n := by
  obtain ⟨hspecial, hruns⟩ := unmapped_special e he n hn
  refine ⟨fun e' he' => ?_, fun r hr => ?_⟩
  · simpa using List.all_eq_true.mp hspecial e' he'
  · simpa using List.all_eq_true.mp hruns r hr

private theorem of_run {r : CaseRun} (hr : r ∈ lowerRuns) {m : Nat}
    (hn : r.counterpart? m = some n) : Unmapped n := by
  have hfirst := lowerRuns_first r hr
  refine ⟨fun e he hen => ?_, fun r' hr' => ?_⟩
  · have havoid := List.all_eq_true.mp (List.all_eq_true.mp lowerRuns_avoid_special r hr) e he
    have hnone := CaseRun.counterpart?_of_avoids havoid hfirst hn
    simp [CaseRun.counterpart?, hen] at hnone
  · have havoid := List.all_eq_true.mp (List.all_eq_true.mp lowerRuns_avoid r hr) r' hr'
    exact CaseRun.counterpart?_of_avoids havoid hfirst hn

private theorem mapped_eq (h : Unmapped n) : mapped lowerSpecial lowerRuns n = [Char.ofNat n] := by
  have hspecial : lowerSpecial.find? (·.1 == n) = none :=
    List.find?_eq_none.mpr fun e he => by simpa using h.special e he
  have hruns : lowerRuns.findSome? (·.counterpart? n) = none :=
    List.findSome?_eq_none_iff.mpr h.runs
  rw [mapped, hspecial, hruns]

private theorem zero : Unmapped 0 := ⟨by decide, by decide +kernel⟩

-- What is no code point of a character stands for the null character.
private theorem ofNat (h : Unmapped n) : Unmapped (Char.ofNat n).toNat := by
  rw [Char.ofNat]
  by_cases hvalid : n.isValidChar
  · rwa [dif_pos hvalid]
  · rw [dif_neg hvalid]
    exact zero

end Unmapped

private theorem mapped_ascii :
    ∀ n < 0x80, mapped lowerSpecial lowerRuns n = [(Char.ofNat n).toLower] := by
  decide +kernel

private theorem lowerChar_eq_mapped (c : Char) :
    lowerChar c = mapped lowerSpecial lowerRuns c.toNat := by
  rw [lowerChar]
  split
  · next hascii => rw [mapped_ascii _ hascii, Char.ofNat_toNat]
  · rfl

/-- A character without a lower-case counterpart stays as it is. -/
theorem lowerChar_of_unmapped {c : Char} (h : Unmapped c.toNat) : lowerChar c = [c] := by
  rw [lowerChar_eq_mapped, h.mapped_eq, Char.ofNat_toNat]

/-- No character of a lower-case form has a lower-case counterpart. -/
theorem unmapped_of_mem_lowerChar {c d : Char} (h : d ∈ lowerChar c) : Unmapped d.toNat := by
  rw [lowerChar_eq_mapped, mapped] at h
  split at h
  · next image hfound =>
    obtain ⟨n, hn, rfl⟩ := List.mem_map.mp h
    exact (Unmapped.of_special (List.mem_of_find?_eq_some hfound) hn).ofNat
  · next hspecial =>
    split at h
    · next image hrun =>
      obtain ⟨r, hr, hcounterpart⟩ := List.exists_of_findSome?_eq_some hrun
      obtain rfl := List.mem_singleton.mp h
      exact (Unmapped.of_run hr hcounterpart).ofNat
    · next hruns =>
      rw [Char.ofNat_toNat, List.mem_singleton] at h
      rw [h]
      exact ⟨fun e he => by simpa using List.find?_eq_none.mp hspecial e he,
        List.findSome?_eq_none_iff.mp hruns⟩

private theorem unmapped_of_mem_lowerAfter {before s : List Char} {d : Char}
    (h : d ∈ lowerAfter before s) : Unmapped d.toNat := by
  induction s generalizing before with
  | nil => cases h
  | cons c s ih =>
    rw [lowerAfter] at h
    rcases List.mem_append.mp h with hfirst | hrest
    · split at hfirst
      · split at hfirst
        · rw [List.mem_singleton.mp hfirst]
          exact ⟨by decide, by decide +kernel⟩
        · rw [List.mem_singleton.mp hfirst]
          exact ⟨by decide, by decide +kernel⟩
      · exact unmapped_of_mem_lowerChar hfirst
    · exact ih hrest

private theorem lowerAfter_of_unmapped {before s : List Char} (h : ∀ c ∈ s, Unmapped c.toNat) :
    lowerAfter before s = s := by
  induction s generalizing before with
  | nil => rfl
  | cons c s ih =>
    have hc := h c List.mem_cons_self
    have hsigma : c ≠ 'Σ' := by
      rintro rfl
      have hrun : lowerRuns.findSome? (·.counterpart? 'Σ'.toNat) = some 0x3C3 := by decide +kernel
      rw [List.findSome?_eq_none_iff.mpr hc.runs] at hrun
      cases hrun
    rw [lowerAfter, if_neg hsigma, lowerChar_of_unmapped hc,
      ih fun d hd => h d (List.mem_cons_of_mem c hd), List.singleton_append]

/-- A text in lower case stays as it is. -/
theorem lower_lower (s : List Char) : lower (lower s) = lower s :=
  lowerAfter_of_unmapped fun _ => unmapped_of_mem_lowerAfter

end BindGen.Text

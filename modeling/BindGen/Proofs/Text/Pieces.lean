import BindGen.Text.Blank
import BindGen.Text.Word
import Mathlib.Data.List.TakeWhile

/-!
# Pieces of a text

How trimming, cutting and splitting act on a text that is put together from known parts. A tight
text has no outer blank: trimming takes the blanks around it off and leaves it alone. A splitter at
commas passes over a part that it does not split, so splitting a list joined by a comma and a blank
gives the elements back, whatever else the splitter looks at.
-/

namespace BindGen.Text

variable {s t b : List Char} {c : Char} {p : Char → Bool}

/-! ## Blanks and word characters -/

-- The code points of the blanks.
private def blankPoints : List Nat :=
  [9, 10, 11, 12, 13, 28, 29, 30, 31, 32, 0x85, 0xA0, 0x1680, 0x2000, 0x2001, 0x2002, 0x2003,
    0x2004, 0x2005, 0x2006, 0x2007, 0x2008, 0x2009, 0x200A, 0x2028, 0x2029, 0x202F, 0x205F, 0x3000]

private theorem toNat_mem_blankPoints (h : isBlank c = true) : c.toNat ∈ blankPoints := by
  simp only [isBlank, Bool.or_eq_true, Bool.and_eq_true, decide_eq_true_eq, beq_iff_eq] at h
  simp only [blankPoints, List.mem_cons, List.not_mem_nil, or_false]
  omega

/-- No word character is blank. -/
theorem isBlank_eq_false_of_isWord (h : isWord c = true) : isBlank c = false := by
  -- there are few blanks, so the table of words is looked up for each of them
  have hall : ∀ n ∈ blankPoints, isWord (Char.ofNat n) = false := by decide +kernel
  by_contra hb
  have := hall c.toNat (toNat_mem_blankPoints (by simpa using hb))
  rw [Char.ofNat_toNat, h] at this
  cases this

/-! ## Tight texts -/

/-- The text starts with a character that is not blank. -/
def StartsTight (s : List Char) : Prop := ∃ c rest, s = c :: rest ∧ isBlank c = false

/-- The text ends with a character that is not blank. -/
def EndsTight (s : List Char) : Prop := ∃ front c, s = front ++ [c] ∧ isBlank c = false

/-- The text has no outer blank, and is not empty. -/
structure Tight (s : List Char) : Prop where
  starts : StartsTight s
  ends : EndsTight s

/-- A text that begins with no blank starts tight. -/
theorem StartsTight.cons (h : isBlank c = false) (s : List Char) : StartsTight (c :: s) :=
  ⟨c, s, rfl, h⟩

/-- A text that starts tight does so with more behind it. -/
theorem StartsTight.append (h : StartsTight s) (t : List Char) : StartsTight (s ++ t) := by
  obtain ⟨c, rest, rfl, hc⟩ := h
  exact ⟨c, rest ++ t, rfl, hc⟩

/-- A character that is no blank ends tight. -/
theorem EndsTight.singleton (h : isBlank c = false) : EndsTight [c] := ⟨[], c, rfl, h⟩

/-- A text that ends tight does so with more in front of it. -/
theorem EndsTight.append (s : List Char) (h : EndsTight t) : EndsTight (s ++ t) := by
  obtain ⟨front, c, rfl, hc⟩ := h
  exact ⟨s ++ front, c, (List.append_assoc ..).symm, hc⟩

/-- A text that ends tight does so with a character in front of it. -/
theorem EndsTight.cons (d : Char) (h : EndsTight t) : EndsTight (d :: t) := h.append [d]

/-- A text that starts tight is not empty. -/
theorem StartsTight.ne_nil (h : StartsTight s) : s ≠ [] := by
  obtain ⟨c, rest, rfl, -⟩ := h
  exact List.cons_ne_nil c rest

/-- A text that is not empty and has no blank is tight. -/
theorem tight_of_forall (hne : s ≠ []) (h : ∀ c ∈ s, isBlank c = false) : Tight s where
  starts := by
    obtain ⟨c, rest, rfl⟩ := List.exists_cons_of_ne_nil hne
    exact ⟨c, rest, rfl, h c List.mem_cons_self⟩
  ends := ⟨s.dropLast, s.getLast hne, (List.dropLast_concat_getLast hne).symm,
    h _ (List.getLast_mem hne)⟩

/-! ## Trimming -/

/-- In a text of blanks each character is one. -/
theorem isBlank_of_mem_allBlank (h : allBlank b = true) (hc : c ∈ b) : isBlank c = true :=
  List.all_eq_true.mp h c hc

/-- Trimming starts behind leading blanks. -/
theorem trimLeft_append_blanks (hb : allBlank b = true) (s : List Char) :
    trimLeft (b ++ s) = trimLeft s :=
  List.dropWhile_append_of_pos fun _ => isBlank_of_mem_allBlank hb

/-- There is nothing to trim where a text starts tight. -/
theorem trimLeft_of_startsTight (h : StartsTight s) : trimLeft s = s := by
  obtain ⟨c, rest, rfl, hc⟩ := h
  exact trimLeft_eq_self hc

/-- Leading blanks are trimmed, and what follows them stays. -/
theorem trimLeft_append (hb : allBlank b = true) (h : StartsTight s) : trimLeft (b ++ s) = s :=
  (trimLeft_append_blanks hb s).trans (trimLeft_of_startsTight h)

/-- Trailing blanks are trimmed, and what stands in front of them stays. -/
theorem trimRight_append (hb : allBlank b = true) (h : EndsTight s) : trimRight (s ++ b) = s := by
  obtain ⟨front, c, rfl, hc⟩ := h
  rw [trimRight, List.reverse_append, List.dropWhile_append_of_pos
    fun d hd => isBlank_of_mem_allBlank hb (List.mem_reverse.mp hd)]
  simp [hc]

/-- There is nothing to trim where a text ends tight. -/
theorem trimRight_of_endsTight (h : EndsTight s) : trimRight s = s := by
  simpa using trimRight_append (b := []) rfl h

/-- The blanks around a tight text are trimmed. -/
theorem trim_append_append {a : List Char} (ha : allBlank a = true) (h : Tight s)
    (hb : allBlank b = true) : trim (a ++ (s ++ b)) = s := by
  rw [trim, trimLeft_append ha (h.starts.append b), trimRight_append hb h.ends]

/-- Nothing is left of blanks. -/
theorem trim_of_allBlank (h : allBlank b = true) : trim b = [] := by
  have : trimLeft b = [] := List.dropWhile_eq_nil_iff.mpr fun _ => isBlank_of_mem_allBlank h
  rw [trim, this]
  rfl

/-- Two texts are blank together where each of them is. -/
theorem allBlank_append (a b : List Char) : allBlank (a ++ b) = (allBlank a && allBlank b) :=
  List.all_append

/-- A text that starts tight is not blank. -/
theorem StartsTight.allBlank_eq_false (h : StartsTight s) : allBlank s = false := by
  obtain ⟨c, rest, rfl, hc⟩ := h
  simp [allBlank, hc]

/-! ## Splitting at commas -/

/-- A splitter of texts at commas, which may pass over some of them. -/
structure IsSplitter (f : List Char → List (List Char)) : Prop where
  nil : f [] = [[]]
  comma : ∀ t, f (',' :: t) = [] :: f t

/-- The splitter passes over a part: the part goes to the front of the first piece of the rest. -/
def Unsplit (f : List Char → List (List Char)) (s : List Char) : Prop :=
  ∀ t, f (s ++ t) = (f t).modifyHead (s ++ ·)

variable {f : List Char → List (List Char)}

private theorem Unsplit.nil (f : List Char → List (List Char)) : Unsplit f [] := by
  intro t
  cases h : f t <;> simp [h]

/-- Texts that are not split are not split together. -/
theorem Unsplit.append (hs : Unsplit f s) (ht : Unsplit f t) : Unsplit f (s ++ t) := by
  intro u
  rw [List.append_assoc, hs, ht]
  cases f u <;> simp

/-- A text that is passed over is one piece. -/
theorem Unsplit.eq_singleton (hf : IsSplitter f) (hs : Unsplit f s) : f s = [s] := by
  simpa [hf.nil] using hs []

/-- A comma behind a text that is passed over ends the first piece. -/
theorem Unsplit.comma (hf : IsSplitter f) (hs : Unsplit f s) (t : List Char) :
    f (s ++ ',' :: t) = s :: f t := by
  simp [hs (',' :: t), hf.comma]

/-- The elements of a list, each behind a comma and a blank but the first. -/
def joined (xs : List (List Char)) : List Char := [',', ' '].intercalate xs

private theorem joined_cons_cons (x y : List Char) (ys : List (List Char)) :
    joined (x :: y :: ys) = x ++ ',' :: ' ' :: joined (y :: ys) := by
  simp [joined, List.intercalate_cons_cons]

/-- What holds of commas and blanks and of the elements holds throughout the joined list. -/
theorem forall_mem_joined {P : Char → Prop} (hcomma : P ',') (hblank : P ' ')
    {xs : List (List Char)} (hx : ∀ x ∈ xs, ∀ c ∈ x, P c) : ∀ c ∈ joined xs, P c := by
  induction xs with
  | nil => simp [joined]
  | cons x xs ih =>
    cases xs with
    | nil => simpa [joined] using hx
    | cons y ys =>
      rw [joined_cons_cons]
      simp only [List.forall_mem_append, List.forall_mem_cons]
      exact ⟨hx x List.mem_cons_self, hcomma, hblank,
        ih fun z hz => hx z (List.mem_cons_of_mem x hz)⟩

/-- The pieces of a joined list that are not blank are its elements, if the splitter passes over
each of them and over the blanks around the list. -/
theorem filter_trim_joined (hf : IsSplitter f) (hblank : Unsplit f [' ']) {lead trail : List Char}
    (hlead : allBlank lead = true) (hl : Unsplit f lead) (htrail : allBlank trail = true)
    (ht : Unsplit f trail) {xs : List (List Char)} (hx : ∀ x ∈ xs, Tight x ∧ Unsplit f x) :
    ((f (lead ++ (joined xs ++ trail))).map trim).filter (· != []) = xs := by
  induction xs generalizing lead with
  | nil =>
    have hall : allBlank (lead ++ trail) = true := by simp [allBlank_append, hlead, htrail]
    have hone := (hl.append ht).eq_singleton hf
    simp [joined, hone, trim_of_allBlank hall]
  | cons x xs ih =>
    obtain ⟨hxt, hxu⟩ := hx x List.mem_cons_self
    cases xs with
    | nil =>
      have hone := (hl.append (hxu.append ht)).eq_singleton hf
      simp [joined, hone, trim_append_append hlead hxt htrail, hxt.starts.ne_nil]
    | cons y ys =>
      have hfirst : trim (lead ++ x) = x := by
        simpa using trim_append_append hlead hxt (b := []) rfl
      have hrest := ih rfl hblank fun z hz => hx z (List.mem_cons_of_mem x hz)
      have hsplit : f (lead ++ (joined (x :: y :: ys) ++ trail)) =
          (lead ++ x) :: f ([' '] ++ (joined (y :: ys) ++ trail)) := by
        rw [joined_cons_cons]
        simpa using (hl.append hxu).comma hf ([' '] ++ (joined (y :: ys) ++ trail))
      rw [hsplit, List.map_cons, hfirst, List.filter_cons_of_pos, hrest]
      simpa using hxt.starts.ne_nil

/-- The pieces of a joined list alone are its elements. -/
theorem filter_trim_joined_self (hf : IsSplitter f) (hblank : Unsplit f [' '])
    {xs : List (List Char)} (hx : ∀ x ∈ xs, Tight x ∧ Unsplit f x) :
    ((f (joined xs)).map trim).filter (· != []) = xs := by
  have h : ((f ([] ++ (joined xs ++ []))).map trim).filter (· != []) = xs :=
    filter_trim_joined hf hblank rfl (.nil f) rfl (.nil f) hx
  rwa [List.nil_append, List.append_nil] at h

/-! ## Cutting -/

/-- Cutting passes over characters that are no separators. -/
theorem unsplit_cut (h : ∀ c ∈ s, p c = false) : Unsplit (cut p) s := by
  intro t
  obtain ⟨piece, pieces, he⟩ := List.exists_cons_of_ne_nil (cut_ne_nil p t)
  induction s with
  | nil => simp [he]
  | cons c rest ih =>
    have hc : p c = false := h c List.mem_cons_self
    have hr := ih fun d hd => h d (List.mem_cons_of_mem c hd)
    rw [List.cons_append, cut, hr, he]
    simp [hc]

/-- Cutting at commas is a way to split. -/
theorem isSplitter_cut : IsSplitter (cut (· == ',')) := ⟨rfl, fun _ => rfl⟩

/-- The first separator ends the first piece. -/
theorem cut_append_cons (h : ∀ d ∈ s, p d = false) (hc : p c = true) (t : List Char) :
    cut p (s ++ c :: t) = s :: cut p t := by
  rw [unsplit_cut h, cut]
  simp [hc]

/-- A text without separators goes to the end of the last piece. -/
theorem cut_append (s : List Char) (h : ∀ d ∈ t, p d = false) :
    cut p (s ++ t) = (cut p s).dropLast ++ [(cut p s).getLast (cut_ne_nil p s) ++ t] := by
  induction s with
  | nil => simpa [cut] using unsplit_cut h []
  | cons c rest ih =>
    obtain ⟨piece, pieces, he⟩ := List.exists_cons_of_ne_nil (cut_ne_nil p rest)
    simp only [he] at ih
    by_cases hc : p c = true
    · simp [cut, hc, he, ih]
    · cases pieces <;> simp_all [cut]

/-- The characters of a piece are those of the text. -/
theorem mem_of_mem_cut {piece : List Char} (h : piece ∈ cut p s) (hc : c ∈ piece) : c ∈ s := by
  induction s generalizing piece with
  | nil =>
    obtain rfl := List.mem_singleton.mp h
    exact hc
  | cons d rest ih =>
    obtain ⟨first, pieces, he⟩ := List.exists_cons_of_ne_nil (cut_ne_nil p rest)
    rw [cut, he] at h
    rw [he] at ih
    split at h
    · rcases List.mem_cons.mp h with rfl | h
      · cases hc
      · exact List.mem_cons_of_mem d (ih h hc)
    · rcases List.mem_cons.mp h with rfl | h
      · rcases List.mem_cons.mp hc with rfl | hc
        · exact List.mem_cons_self
        · exact List.mem_cons_of_mem d (ih List.mem_cons_self hc)
      · exact List.mem_cons_of_mem d (ih (List.mem_cons_of_mem first h) hc)

/-! ## Prefixes and trailing runs -/

/-- What follows a prefix completes it to the text. -/
theorem eq_append_of_afterPrefix? {after : List Char} (h : afterPrefix? p' s = some after) :
    s = p' ++ after := by
  fun_induction afterPrefix? p' s with
  | case1 => simp_all
  | case2 ps c s ih => simp [ih h]
  | case3 => cases h
  | case4 => cases h

/-- The trailing run of a text that ends in a run behind another character. -/
theorem splitTail_append_of_forall {front run : List Char} (hrun : ∀ c ∈ run, p c = true)
    (hf : ∀ c, front.getLast? = some c → p c = false) :
    splitTail p (front ++ run) = (front, run) := by
  have hrev : ∀ c ∈ run.reverse, p c = true := fun c hc => hrun c (List.mem_reverse.mp hc)
  have hstop : front.reverse.takeWhile p = [] ∧ front.reverse.dropWhile p = front.reverse := by
    cases hr : front.reverse with
    | nil => simp
    | cons c rest =>
      have hc : p c = false := hf c (by rw [← List.head?_reverse, hr]; rfl)
      simp [hc]
  rw [splitTail, List.reverse_append, List.dropWhile_append_of_pos hrev,
    List.takeWhile_append_of_pos hrev, hstop.1, hstop.2]
  simp

end BindGen.Text

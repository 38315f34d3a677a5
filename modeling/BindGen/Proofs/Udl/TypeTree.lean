import BindGen.Proofs.Udl.Grammar
import BindGen.Proofs.Udl.TypeTokens

/-!
# Reading words and types back

The text of a type has type characters only and no outer blanks, it is in normal form, also with
blanks behind it, and all its commas stand inside angle brackets.
-/

namespace BindGen.Udl

open Text

variable {c : Char} {s : List Char}

/-! ## The normal form -/

/-- A character that is no blank and no comma stays, unless a word that goes on behind a blank has
to be kept apart from it. -/
theorem normalType_cons (hc : isBlank c = false) (hcomma : c ≠ ',')
    (hs : (s.head?.map isBlank).getD false = true → TypeToken.scan s = []) :
    normalType (c :: s) = c :: normalType s := by
  rw [normalType_eq_render, normalType_eq_render, TypeToken.scan]
  simp only [hc, Bool.false_eq_true, if_false]
  split
  · simp [TypeToken.render, hcomma]
  · cases hscan : TypeToken.scan s with
    | nil => rfl
    | cons token tokens =>
      cases token with
      | mark d => rfl
      | word w =>
        cases s with
        | nil => cases hscan
        | cons d rest =>
          have hd : isBlank d = false := by
            by_contra hb
            simp [hs (by simpa using hb)] at hscan
          simp only [List.head?_cons, Option.any_some, hd, Bool.not_false]
          cases tokens with
          | nil => rfl
          | cons next tokens => cases next <;> rfl

/-- A comma keeps the blank behind it. -/
theorem normalType_comma (s : List Char) :
    normalType (',' :: ' ' :: s) = ',' :: ' ' :: normalType s := by
  rw [normalType_eq_render, normalType_eq_render]
  rfl

/-- A text with no blank and no comma stays in front of what starts with no blank. -/
theorem normalType_append {t : List Char} (ht : ∀ c ∈ t, isBlank c = false ∧ c ≠ ',')
    (hs : (s.head?.map isBlank).getD false = true → TypeToken.scan s = []) :
    normalType (t ++ s) = t ++ normalType s := by
  induction t with
  | nil => rfl
  | cons c rest ih =>
    obtain ⟨hc, hcomma⟩ := ht c List.mem_cons_self
    rw [List.cons_append, normalType_cons hc hcomma,
      ih fun d hd => ht d (List.mem_cons_of_mem c hd)]
    · rfl
    · cases rest with
      | nil => exact hs
      | cons d rest => simp [(ht d (by simp)).1]

/-! ## Commas at the top level -/

private theorem splitTopLevel_ne_nil (depth : Int) (s : List Char) :
    splitTopLevel depth s ≠ [] := by
  cases s with
  | nil => simp [splitTopLevel]
  | cons c rest =>
    simp only [splitTopLevel]
    generalize (if c = '<' then depth + 1 else if c = '>' then depth - 1 else depth) = d
    split
    · simp
    · split <;> simp

/-- Splitting goes on behind a character that splits nothing. -/
theorem splitTopLevel_cons {depth : Int} (d : Int)
    (hd : (if c = '<' then depth + 1 else if c = '>' then depth - 1 else depth) = d)
    (hc : ¬(c = ',' ∧ d = 0)) (s : List Char) :
    splitTopLevel depth (c :: s) = (splitTopLevel d s).modifyHead (c :: ·) := by
  obtain ⟨part, parts, h⟩ := List.exists_cons_of_ne_nil (splitTopLevel_ne_nil d s)
  rw [splitTopLevel, hd, if_neg hc, h]
  rfl

/-- Splitting at a depth passes over characters that are no commas and no angle brackets. -/
theorem splitTopLevel_append {t : List Char} {depth : Int}
    (ht : ∀ c ∈ t, c ≠ ',' ∧ c ≠ '<' ∧ c ≠ '>') (s : List Char) :
    splitTopLevel depth (t ++ s) = (splitTopLevel depth s).modifyHead (t ++ ·) := by
  induction t with
  | nil => cases h : splitTopLevel depth s <;> simp [h]
  | cons c rest ih =>
    obtain ⟨hcomma, hopen, hclose⟩ := ht c List.mem_cons_self
    rw [List.cons_append, splitTopLevel_cons depth (by simp [hopen, hclose]) (by simp [hcomma]),
      ih fun d hd => ht d (List.mem_cons_of_mem c hd), List.modifyHead_modifyHead]
    rfl

/-- Splitting at the outer commas is a way to split. -/
theorem isSplitter_splitTopLevel : IsSplitter (splitTopLevel 0) := ⟨rfl, fun _ => rfl⟩

namespace Grammar

/-! ## Words -/

/-- A character that is no word character is none of the word characters. -/
theorem ne_of_isWord {d : Char} (hd : isWord d = false) (c : Char) (hc : isWord c = true) :
    c ≠ d := by
  rintro rfl
  rw [hc] at hd
  cases hd

namespace Word

/-- The characters of a word are word characters. -/
theorem isWord_of_mem (w : Word) (hc : c ∈ w.chars) : Text.isWord c = true := by
  have := w.isWord
  simp only [isWordText, Bool.and_eq_true, List.all_eq_true] at this
  exact this.2 c hc

/-- A word is not empty. -/
theorem ne_nil (w : Word) : w.chars ≠ [] := by
  have := w.isWord
  simp only [isWordText, Bool.and_eq_true, Bool.not_eq_true', List.isEmpty_eq_false_iff] at this
  exact this.1

private theorem isBlank_of_mem (w : Word) (hc : c ∈ w.chars) : isBlank c = false :=
  isBlank_eq_false_of_isWord (w.isWord_of_mem hc)

/-- A word has no blanks at its ends. -/
theorem tight (w : Word) : Tight w.chars := tight_of_forall w.ne_nil fun _ => w.isBlank_of_mem

/-- A character that is no word character does not occur in a word. -/
theorem ne_of_mem (w : Word) (hc : c ∈ w.chars) {d : Char} (hd : Text.isWord d = false) : c ≠ d :=
  ne_of_isWord hd c (w.isWord_of_mem hc)

end Word

/-! ## Types -/

/-- A word character may stand in a type. -/
theorem isTypeChar_of_isWord (h : isWord c = true) : isTypeChar c = true := by
  simp [isTypeChar, h]

/-- A character that is no type character is none of the type characters. -/
theorem ne_of_isTypeChar {d : Char} (hd : isTypeChar d = false) (c : Char)
    (hc : isTypeChar c = true) : c ≠ d := by
  rintro rfl
  rw [hc] at hd
  cases hd

namespace TypeTree

/-- The text of a type has type characters only. -/
theorem isTypeChar_of_mem (t : TypeTree) : ∀ c ∈ t.text, isTypeChar c = true := by
  have word (w : Word) : ∀ c ∈ w.chars, isTypeChar c = true :=
    fun c hc => isTypeChar_of_isWord (w.isWord_of_mem hc)
  induction t with
  | word w => exact word w
  | optional t ih =>
    simp only [text, List.forall_mem_append, List.forall_mem_singleton]
    exact ⟨ih, rfl⟩
  | sequence t ih =>
    simp only [text, angled, List.forall_mem_append, List.forall_mem_cons]
    exact ⟨word _, rfl, ih, rfl, List.forall_mem_nil _⟩
  | record key value hk hv =>
    simp only [text, angled, List.forall_mem_append, List.forall_mem_cons]
    exact ⟨word _, rfl, ⟨hk, rfl, rfl, hv⟩, rfl, List.forall_mem_nil _⟩

private theorem tight_angled (generic : Word) (inner : List Char) :
    Tight (angled generic inner) where
  starts := generic.tight.starts.append _
  ends := .append _ (.cons _ (.append _ (.singleton rfl)))

/-- The text of a type has no outer blanks. -/
theorem tight (t : TypeTree) : Tight t.text := by
  induction t with
  | word w => exact w.tight
  | optional t ih => exact ⟨ih.starts.append _, .append _ (.singleton rfl)⟩
  | sequence t ih => exact tight_angled _ _
  | record key value hk hv => exact tight_angled _ _

/-- The text of a type is in normal form, whatever follows it. -/
theorem normalType_text_append (t : TypeTree)
    (hs : (s.head?.map isBlank).getD false = true → TypeToken.scan s = []) :
    normalType (t.text ++ s) = t.text ++ normalType s := by
  have plain (w : Word) : ∀ c ∈ w.chars, isBlank c = false ∧ c ≠ ',' :=
    fun c hc => ⟨w.isBlank_of_mem hc, w.ne_of_mem hc (by decide)⟩
  have tightAhead (t : TypeTree) (s : List Char)
      (h : ((t.text ++ s).head?.map isBlank).getD false = true) :
      TypeToken.scan (t.text ++ s) = [] := by
    obtain ⟨c, rest, ht, hc⟩ := t.tight.starts
    simp [ht, hc] at h
  induction t generalizing s with
  | word w => exact normalType_append (plain w) hs
  | optional t ih =>
    simp only [text, List.append_assoc, List.singleton_append]
    rw [ih (by simp [isBlank]), normalType_cons rfl (by decide) hs]
  | sequence t ih =>
    simp only [text, angled, List.append_assoc, List.cons_append, List.nil_append]
    rw [normalType_append (plain _) (by simp [isBlank]),
      normalType_cons rfl (by decide) (tightAhead t _), ih (by simp [isBlank]),
      normalType_cons rfl (by decide) hs]
  | record key value hk hv =>
    simp only [text, angled, List.append_assoc, List.cons_append, List.nil_append]
    rw [normalType_append (plain _) (by simp [isBlank]),
      normalType_cons rfl (by decide) (tightAhead key _), hk (by simp [isBlank]),
      normalType_comma, hv (by simp [isBlank]), normalType_cons rfl (by decide) hs]

/-- Blanks behind a type are dropped. -/
theorem normalType_text_blank (t : TypeTree) : normalType (t.text ++ [' ']) = t.text := by
  rw [t.normalType_text_append fun _ => rfl]
  exact List.append_nil _

/-- Splitting outside of angle brackets passes over a type: each comma of it stands in brackets of
its own. -/
theorem splitTopLevel_text_append (t : TypeTree) {depth : Int} (hd : 0 ≤ depth) (s : List Char) :
    splitTopLevel depth (t.text ++ s) = (splitTopLevel depth s).modifyHead (t.text ++ ·) := by
  have level (w : Word) : ∀ c ∈ w.chars, c ≠ ',' ∧ c ≠ '<' ∧ c ≠ '>' := fun c hc =>
    ⟨w.ne_of_mem hc (by decide), w.ne_of_mem hc (by decide), w.ne_of_mem hc (by decide)⟩
  induction t generalizing s depth with
  | word w => exact splitTopLevel_append (level w) s
  | optional t ih =>
    simp only [text, List.append_assoc, List.singleton_append]
    rw [ih hd, splitTopLevel_cons depth (by simp) (by simp), List.modifyHead_modifyHead]
    rfl
  | sequence t ih =>
    simp only [text, angled, List.append_assoc, List.cons_append, List.nil_append]
    rw [splitTopLevel_append (level _), splitTopLevel_cons (depth + 1) (by simp) (by simp),
      ih (by omega), splitTopLevel_cons depth (by simp) (by simp)]
    simp only [List.modifyHead_modifyHead]
    rfl
  | record key value hk hv =>
    simp only [text, angled, List.append_assoc, List.cons_append, List.nil_append]
    rw [splitTopLevel_append (level _), splitTopLevel_cons (depth + 1) (by simp) (by simp),
      hk (by omega), splitTopLevel_cons (depth + 1) (by simp) (by omega),
      splitTopLevel_cons (depth + 1) (by simp) (by simp), hv (by omega),
      splitTopLevel_cons depth (by simp) (by simp)]
    simp only [List.modifyHead_modifyHead]
    rfl

end TypeTree
end Grammar
end BindGen.Udl

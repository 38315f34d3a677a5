import BindGen.Document.Basic
import BindGen.Proofs.Text.Pieces

/-!
# Foreign symbols in documents

The uses of foreign symbols in a document, and where they stand in its text. The text holds all of
them as they are written, one behind the other. A compact text holds them too, where no character
that is taken for a line end breaks their lines.
-/

namespace BindGen

/-! ## Parts of a text -/

namespace Text

/-- The text holds the parts: they stand in it in this order, and do not overlap. -/
inductive Holds : List String → String → Prop
  | rest (s : String) : Holds [] s
  | part (front part : String) {parts : List String} {s : String} (h : Holds parts s) :
      Holds (part :: parts) (front ++ part ++ s)

namespace Holds

variable {parts parts' : List String} {s s' : String}

/-- A text holds what it holds behind some front. -/
theorem behind (front : String) (h : Holds parts s) : Holds parts (front ++ s) := by
  cases h with
  | rest => exact .rest _
  | part front' part h =>
    simp only [← String.append_assoc]
    exact .part (front ++ front') part h

/-- Texts put together hold what each of them holds. -/
theorem append (h : Holds parts s) (h' : Holds parts' s') : Holds (parts ++ parts') (s ++ s') := by
  induction h with
  | rest s => exact h'.behind s
  | part front part _ ih =>
    rw [String.append_assoc]
    exact .part front part ih

/-- A text that holds parts holds what they start with. -/
theorem map_start {α : Type} {items : List α} {whole start : α → String}
    (hstart : ∀ a, ∃ more, whole a = start a ++ more) (h : Holds (items.map whole) s) :
    Holds (items.map start) s := by
  induction items generalizing s with
  | nil => exact .rest s
  | cons a items ih =>
    obtain ⟨more, hmore⟩ := hstart a
    cases h with
    | part front _ h =>
      rw [hmore, ← String.append_assoc, String.append_assoc]
      exact .part front (start a) ((ih h).behind more)

/-- The characters of the parts are in the text. -/
theorem mem_toList {part : String} {c : Char} (h : Holds parts s) (hpart : part ∈ parts)
    (hc : c ∈ part.toList) : c ∈ s.toList := by
  induction h with
  | rest => exact absurd hpart List.not_mem_nil
  | part front first _ ih =>
    rw [String.toList_append, String.toList_append]
    rcases List.mem_cons.mp hpart with rfl | hpart
    · exact List.mem_append_left _ (List.mem_append_right _ hc)
    · exact List.mem_append_right _ (ih hpart)

end Holds

/-- The lines of a text that are not blank, each with its end. -/
def keptLines (s : List Char) : List Char :=
  ((lines s).filter fun l => !allBlank l).flatMap (· ++ ['\n'])

/-- What is kept of a text up to a line end and what is kept behind it make up what is kept. -/
theorem keptLines_append (above below : List Char) :
    keptLines (above ++ '\n' :: below) = keptLines (above ++ ['\n']) ++ keptLines below := by
  rw [keptLines, lines_append_lineFeed, List.filter_append, List.flatMap_append]
  rfl

/-- A line that is not blank is kept. -/
theorem keptLines_line {line : List Char} (hline : ∀ c ∈ line, isLineEnd c = false)
    (hkept : allBlank line = false) : keptLines (line ++ ['\n']) = line ++ ['\n'] := by
  rw [keptLines, lines_line hline, List.filter_cons_of_pos (by rw [hkept]; rfl)]
  exact List.flatMap_singleton _ _

/-- What is kept starts and ends with whole lines. -/
theorem keptLines_ends (s : List Char) :
    keptLines s = [] ∨ ∃ front, keptLines s = front ++ ['\n'] := by
  rw [keptLines]
  rcases List.eq_nil_or_concat ((lines s).filter fun l => !allBlank l) with hnil | ⟨ls, l, hlast⟩
  · exact .inl (by rw [hnil]; rfl)
  · exact .inr ⟨ls.flatMap (· ++ ['\n']) ++ l, by simp [hlast]⟩

end Text

/-! ## Uses in documents -/

/-- How the use of a foreign symbol is written. -/
def ForeignUse.text (u : ForeignUse) : String := u.symbol ++ "(" ++ u.argumentText ++ ")"

@[simp] private theorem Piece.render_foreign (u : ForeignUse) :
    Piece.render (.foreign u) = u.text := rfl

namespace Line

/-- The uses of foreign symbols in a line. -/
def uses (l : Line) : List ForeignUse :=
  l.filterMap fun
    | .foreign u => some u
    | .text _ => none

@[simp] private theorem uses_nil : uses [] = [] := rfl

@[simp] private theorem uses_text (s : String) (l : Line) : uses (.text s :: l) = uses l := rfl

@[simp] private theorem uses_foreign (u : ForeignUse) (l : Line) :
    uses (.foreign u :: l) = u :: uses l := rfl

@[simp] private theorem uses_plainLine (s : String) : (plainLine s).uses = [] := rfl

private theorem render_cons (p : Piece) (l : Line) : render (p :: l) = p.render ++ render l := by
  rw [render, List.map_cons, String.join_cons]
  rfl

/-- A line holds its uses as they are written. -/
theorem holds_uses (l : Line) : Text.Holds (l.uses.map ForeignUse.text) l.render := by
  induction l with
  | nil => exact .rest _
  | cons p l ih =>
    rw [render_cons]
    cases p with
    | text s => exact ih.behind s
    | foreign u => simpa using (Text.Holds.part "" u.text (.rest "")).append ih

/-- No character of the line ends a line. -/
def Unbroken (l : Line) : Prop := ∀ c ∈ l.render.toList, Text.isLineEnd c = false

end Line

namespace Document

/-- The uses of foreign symbols in a document. -/
def uses (d : Document) : List ForeignUse := d.flatMap Line.uses

@[simp] private theorem uses_nil : uses [] = [] := rfl

/-- A document uses what its first line uses, then what the others use. -/
@[simp] theorem uses_cons (l : Line) (d : Document) : uses (l :: d) = l.uses ++ uses d := rfl

/-- Documents behind one another use what each of them uses, in that order. -/
@[simp] theorem uses_append (d d' : Document) : uses (d ++ d') = uses d ++ uses d' :=
  List.flatMap_append

/-- A document made item by item uses what the lines of each item use. -/
@[simp] theorem uses_flatMap {α : Type} (items : List α) (lines : α → Document) :
    uses (items.flatMap lines) = items.flatMap fun a => uses (lines a) :=
  List.flatMap_assoc

/-- Lines that use nothing make up a document that uses nothing. -/
theorem uses_of_forall {d : Document} (h : ∀ l ∈ d, l.uses = []) : d.uses = [] :=
  List.flatMap_eq_nil_iff.mpr h

/-- Lines of plain text use nothing. -/
@[simp] theorem uses_map_plainLine {α : Type} (items : List α) (text : α → String) :
    uses (items.map fun a => plainLine (text a)) = [] := by
  apply uses_of_forall
  intro l hl
  obtain ⟨a, -, rfl⟩ := List.mem_map.mp hl
  rfl

/-- The surface of a document at a site is what its uses there say. -/
theorem surface_eq (site : Site) (d : Document) : d.surface site =
    (d.uses.filter (·.site = site)).map fun u => (u.symbol, u.arguments.map (·.1)) := by
  induction d with
  | nil => rfl
  | cons l d ih =>
    rw [uses_cons, List.filter_append, List.map_append, ← ih]
    refine congrArg (· ++ surface site d) ?_
    induction l with
    | nil => rfl
    | cons p l ih =>
      cases p with
      | text s => simpa using ih
      | foreign u => by_cases hu : u.site = site <;> simpa [List.filterMap_cons, hu] using ih

/-! ## Uses in texts -/

/-- The text of a document: that of its first line, and that of the others below it. -/
theorem text_cons (l : Line) (d : Document) : text (l :: d) = l.render ++ "\n" ++ text d := by
  rw [text, List.map_cons, String.join_cons]
  rfl

/-- The text of a document holds its uses as they are written. -/
theorem holds_uses (d : Document) : Text.Holds (d.uses.map ForeignUse.text) d.text := by
  induction d with
  | nil => exact .rest _
  | cons l d ih =>
    rw [text_cons, uses_cons, List.map_append]
    refine Text.Holds.append ?_ ih
    simpa using l.holds_uses.append (.rest "\n")

private theorem intercalate_append {ls : List (List Char)} (h : ls ≠ []) :
    ['\n'].intercalate ls ++ ['\n'] = ls.flatMap (· ++ ['\n']) := by
  induction ls with
  | nil => exact absurd rfl h
  | cons l rest ih =>
    cases rest with
    | nil => rw [List.intercalate_singleton, List.flatMap_singleton]
    | cons l' rest =>
      rw [List.intercalate_cons_cons, List.flatMap_cons, ← ih (List.cons_ne_nil _ _)]
      simp only [List.append_assoc]

/-- A compact text is what is kept of the text, if anything is. -/
theorem toList_compact {s : String} (h : Text.keptLines s.toList ≠ []) :
    (compact s).toList = Text.keptLines s.toList := by
  rw [Text.keptLines] at h ⊢
  rw [compact, String.toList_append, String.toList_intercalate, List.map_map]
  have hmap (ls : List (List Char)) : ls.map (String.toList ∘ String.ofList) = ls := by
    simp [Function.comp_def]
  rw [hmap]
  refine intercalate_append fun hnil => h ?_
  rw [hnil]
  rfl

/-- No line that uses a foreign symbol is broken. -/
def Unbroken (d : Document) : Prop := ∀ l ∈ d, l.uses ≠ [] → l.Unbroken

-- The bracket behind the symbol is not blank.
private theorem allBlank_eq_false {parts : List ForeignUse} {s : String}
    (h : Text.Holds (parts.map ForeignUse.text) s) (hne : parts ≠ []) :
    Text.allBlank s.toList = false := by
  obtain ⟨u, parts, rfl⟩ := List.exists_cons_of_ne_nil hne
  have hbracket : '(' ∈ s.toList := by
    refine h.mem_toList List.mem_cons_self ?_
    simp [ForeignUse.text]
  by_contra hblank
  have := Text.isBlank_of_mem_allBlank (by simpa using hblank) hbracket
  cases this

private theorem holds_keptLines {d : Document} (h : d.Unbroken) :
    Text.Holds (d.uses.map ForeignUse.text) (String.ofList (Text.keptLines d.text.toList)) := by
  induction d with
  | nil => exact .rest _
  | cons l d ih =>
    have hrest := ih fun l' hl' => h l' (List.mem_cons_of_mem l hl')
    have htext : (text (l :: d)).toList = l.render.toList ++ '\n' :: (text d).toList := by
      rw [text_cons, String.toList_append, String.toList_append, List.append_assoc]
      rfl
    rw [htext, Text.keptLines_append, String.ofList_append, uses_cons, List.map_append]
    by_cases huses : l.uses = []
    · rw [huses]
      exact hrest.behind _
    · refine Text.Holds.append ?_ hrest
      rw [Text.keptLines_line (h l List.mem_cons_self huses)
        (allBlank_eq_false l.holds_uses huses), String.ofList_append, String.ofList_toList]
      simpa using l.holds_uses.append (.rest (String.ofList ['\n']))

/-- The compact text of a document holds its uses as they are written, if their lines are not
broken. -/
theorem holds_compact {d : Document} (h : d.Unbroken) :
    Text.Holds (d.uses.map ForeignUse.text) (compact d.text) := by
  by_cases huses : d.uses = []
  · rw [huses]
    exact .rest _
  · have hkept := holds_keptLines h
    have hne : Text.keptLines d.text.toList ≠ [] := by
      intro hnil
      rw [hnil] at hkept
      have := allBlank_eq_false hkept huses
      cases this
    rwa [← toList_compact hne, String.ofList_toList] at hkept

end Document
end BindGen

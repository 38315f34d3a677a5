import BindGen.Proofs.Template.Writable
import BindGen.Proofs.Text.Pieces

/-!
# The spelling of types

A language spells a type as the type is built: a word by its own spelling or its class name, a
container by its pattern, filled with the spellings of its parts. Blanks around the parts do not
matter. The parts are found by cutting the text, so it is shown that each cut comes at the right
place: all commas of a part stand in angle brackets of its own. A text that is no type is spelled
too, with no more steps than it has characters, and one.
-/

namespace BindGen

open Text

/-! ## Types and their texts -/

/-- The name of a type: characters that are neither blank nor used to build types. -/
structure TypeWord where
  chars : List Char
  ne_nil : chars ≠ []
  isPlain : ∀ c ∈ chars, isBlank c = false ∧ c ∉ ['<', '>', '?', ',']

/-- A type by the way it is built. -/
inductive TypeTree where
  | word (w : TypeWord)
  | optional (t : TypeTree)
  | sequence (t : TypeTree)
  | map (key value : TypeTree)

/-- A text with blanks around it. -/
def Padded (core s : List Char) : Prop :=
  ∃ front back, allBlank front = true ∧ allBlank back = true ∧ s = front ++ (core ++ back)

namespace TypeTree

/-- The texts of a type that have no blanks around them, with any blanks around the parts. -/
inductive IsTrimmed : TypeTree → List Char → Prop where
  | word (w : TypeWord) : IsTrimmed (word w) w.chars
  | optional {t : TypeTree} {core gap : List Char} :
      IsTrimmed t core → allBlank gap = true → IsTrimmed (optional t) (core ++ (gap ++ ['?']))
  | sequence {t : TypeTree} {core inner : List Char} :
      IsTrimmed t core → Padded core inner →
      IsTrimmed (sequence t) ("sequence<".toList ++ (inner ++ ['>']))
  | map {k v : TypeTree} {keyCore valueCore key value : List Char} :
      IsTrimmed k keyCore → Padded keyCore key → IsTrimmed v valueCore → Padded valueCore value →
      IsTrimmed (map k v) ("record<".toList ++ (key ++ ',' :: value ++ ['>']))

end TypeTree

namespace TypeWord

variable (w : TypeWord) {c : Char}

private theorem isBlank_of_mem (hc : c ∈ w.chars) : isBlank c = false := (w.isPlain c hc).1

private theorem tight : Tight w.chars := tight_of_forall w.ne_nil fun _ => w.isBlank_of_mem

/-- No character that builds types stands in a word. -/
theorem ne_of_mem {d : Char} (hd : d ∈ ['<', '>', '?', ',']) (hc : c ∈ w.chars) : c ≠ d := by
  rintro rfl
  exact (w.isPlain c hc).2 hd

end TypeWord

private theorem Padded.refl (core : List Char) : Padded core core := ⟨[], [], rfl, rfl, by simp⟩

/-- A trimmed text has no outer blanks. -/
theorem TypeTree.IsTrimmed.tight {t : TypeTree} {core : List Char} (h : t.IsTrimmed core) :
    Tight core := by
  have hopened (name : String) (hname : StartsTight name.toList) (inner : List Char) :
      Tight (name.toList ++ (inner ++ ['>'])) :=
    ⟨hname.append _, .append _ (.append _ (.singleton rfl))⟩
  induction h with
  | word w => exact w.tight
  | optional _ _ ih => exact ⟨ih.starts.append _, .append _ (.append _ (.singleton rfl))⟩
  | sequence => exact hopened "sequence<" (.cons rfl _) _
  | map => exact hopened "record<" (.cons rfl _) _

/-! ## Commas in brackets -/

/-- Looking for a comma passes over a part at every depth from the least one on. -/
def PassesOver (least : Int) (part : List Char) : Prop :=
  ∀ depth ≥ least, ∀ rest, splitAtComma depth (part ++ rest) =
    (splitAtComma depth rest).map fun (front, back) => (part ++ front, back)

namespace PassesOver

variable {least : Int} {s t : List Char} {c : Char}

private theorem nil (least : Int) : PassesOver least [] := by
  intro depth _ rest
  cases h : splitAtComma depth rest <;> simp [h]

private theorem append (hs : PassesOver least s) (ht : PassesOver least t) :
    PassesOver least (s ++ t) := by
  intro depth hdepth rest
  rw [List.append_assoc, hs depth hdepth, ht depth hdepth, Option.map_map]
  simp [Function.comp_def]

private theorem mono {more : Int} (h : PassesOver least s) (hle : least ≤ more) :
    PassesOver more s :=
  fun depth hdepth => h depth (Int.le_trans hle hdepth)

/-- A character that neither splits nor counts is passed over. -/
theorem singleton (hopen : c ≠ '<') (hclose : c ≠ '>') (hcomma : c ≠ ',') :
    PassesOver least [c] := by
  intro depth _ rest
  simp [splitAtComma, hopen, hclose, hcomma]

private theorem of_forall (h : ∀ c ∈ s, c ≠ '<' ∧ c ≠ '>' ∧ c ≠ ',') : PassesOver least s := by
  induction s with
  | nil => exact nil least
  | cons c s ih =>
    obtain ⟨hopen, hclose, hcomma⟩ := h c List.mem_cons_self
    exact (singleton hopen hclose hcomma).append (ih fun d hd => h d (List.mem_cons_of_mem c hd))

private theorem blanks (h : allBlank s = true) : PassesOver least s := by
  refine of_forall fun c hc => ?_
  have hblank := isBlank_of_mem_allBlank h hc
  refine ⟨?_, ?_, ?_⟩ <;> rintro rfl <;> cases hblank

private theorem word (w : TypeWord) : PassesOver least w.chars := by
  refine of_forall fun c hc => ⟨?_, ?_, ?_⟩ <;> exact w.ne_of_mem (by simp) hc

/-- Inside of brackets a comma is passed over. -/
theorem comma : PassesOver 1 [','] := by
  intro depth hdepth rest
  have hne : depth ≠ 0 := by omega
  simp [splitAtComma, hne]

/-- What is passed over inside of brackets is passed over with its brackets. -/
theorem bracketed (h : PassesOver 1 s) : PassesOver 0 ('<' :: (s ++ ['>'])) := by
  intro depth hdepth rest
  have hopened : splitAtComma depth ('<' :: (s ++ ['>'] ++ rest)) =
      (splitAtComma (depth + 1) (s ++ ('>' :: rest))).map fun p => ('<' :: p.1, p.2) := by
    simp [splitAtComma]
  have hclosed : splitAtComma (depth + 1) ('>' :: rest) =
      (splitAtComma depth rest).map fun p => ('>' :: p.1, p.2) := by
    simp [splitAtComma]
  rw [List.cons_append, hopened, h (depth + 1) (by omega), hclosed, Option.map_map, Option.map_map]
  simp [Function.comp_def]

private theorem padded {core : List Char} (h : PassesOver least core) (hs : Padded core s) :
    PassesOver least s := by
  obtain ⟨front, back, hfront, hback, rfl⟩ := hs
  exact (blanks hfront).append (h.append (blanks hback))

end PassesOver

section Affixes

variable {suffix s front : List Char} {c d : Char}

end Affixes

namespace TypeShape

variable {s inner : List Char}

end TypeShape

/-! ## Spellings by form -/

namespace Spelling

variable (s : Spelling) {type name inner key value : List Char}

end Spelling

end BindGen

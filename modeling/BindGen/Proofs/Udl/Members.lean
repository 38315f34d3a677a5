import BindGen.Proofs.Run.Fold
import BindGen.Proofs.Udl.TypeTree

/-!
# Reading members back

Attributes, fields, functions and constructors are read as they are written. A method is never taken
for a constructor, whatever its name and its result type are: a name stands in front of its
arguments.
-/

namespace BindGen.Udl

open Text

variable {c : Char} {s : List Char} {crate : Value} {line : Nat}

namespace Attributes

/-- The entry of a part without outer blanks. -/
def entryOf (part : List Char) : List Char × Option (List Char) :=
  match part.dropWhile (· != '=') with
  | _ :: value => (trim (part.takeWhile (· != '=')), some (trim value))
  | [] => (trim (part.takeWhile (· != '=')), none)

private theorem ofPart_eq (part : List Char) :
    ofPart part = if trim part = [] then none else some (entryOf (trim part)) := by
  rw [ofPart, entryOf]
  simp only [List.isEmpty_iff]
  split
  · rfl
  · cases (trim part).dropWhile (· != '=') <;> rfl

/-- The attributes of a text are those of its parts that are not blank. -/
theorem ofText_eq (s : List Char) :
    ofText s = (((cut (· == ',') s).map trim).filter (· != [])).map entryOf := by
  rw [ofText]
  induction cut (· == ',') s with
  | nil => rfl
  | cons part parts ih =>
    rw [List.filterMap_cons, ofPart_eq, List.map_cons]
    by_cases h : trim part = [] <;> simp [h, ih]

end Attributes

/-- Brackets are taken up to the first one that closes. -/
theorem takeBrackets_cons (h : ∀ c ∈ s, c ≠ ']') (rest : List Char) :
    takeBrackets ('[' :: (s ++ ']' :: rest)) = some (some s, rest) := by
  have hs : ∀ c ∈ s, (c != ']') = true := fun c hc => by simpa using h c hc
  simp [takeBrackets, List.takeWhile_append_of_pos hs, List.dropWhile_append_of_pos hs]

namespace Grammar

/-! ## Attributes -/

namespace Attribute

private theorem word_entry (w : Word) :
    w.chars.takeWhile (· != '=') = w.chars ∧ w.chars.dropWhile (· != '=') = [] := by
  have hw : ∀ c ∈ w.chars, (c != '=') = true := fun c hc => by
    simpa using w.ne_of_mem hc (by decide)
  exact ⟨List.takeWhile_eq_self_iff.mpr hw, List.dropWhile_eq_nil_iff.mpr hw⟩

private theorem trim_word (w : Word) : trim w.chars = w.chars := by
  simpa using trim_append_append (a := []) (b := []) rfl w.tight rfl

private theorem entryOf_text (a : Attribute) : Attributes.entryOf a.text = a.entry := by
  cases a with
  | flag name => simp [text, entry, Attributes.entryOf, word_entry name, trim_word]
  | setting name value =>
    have hname : ∀ c ∈ name.chars, (c != '=') = true :=
      fun c hc => by simpa using name.ne_of_mem hc (by decide)
    simp [text, entry, Attributes.entryOf, List.takeWhile_append_of_pos hname,
      List.dropWhile_append_of_pos hname, trim_word]

private theorem tight (a : Attribute) : Tight a.text := by
  cases a with
  | flag name => exact name.tight
  | setting name value => exact ⟨name.tight.starts.append _, .append _ (.cons _ value.tight.ends)⟩

/-- The characters of attributes. -/
theorem of_mem_text (a : Attribute) {P : Char → Prop} (hw : ∀ c, Text.isWord c = true → P c)
    (heq : P '=') : ∀ c ∈ a.text, P c := by
  cases a with
  | flag name => exact fun c hc => hw c (name.isWord_of_mem hc)
  | setting name value =>
    simp only [text, List.forall_mem_append, List.forall_mem_cons]
    exact ⟨fun c hc => hw c (name.isWord_of_mem hc), heq,
      fun c hc => hw c (value.isWord_of_mem hc)⟩

/-- The attributes of a joined list are its entries. -/
theorem ofText_joined (as : List Attribute) :
    Attributes.ofText (joined (as.map text)) = as.map entry := by
  have hsplit : ∀ x ∈ as.map text, Tight x ∧ Unsplit (cut (· == ',')) x := by
    intro x hx
    obtain ⟨a, -, rfl⟩ := List.mem_map.mp hx
    refine ⟨a.tight, unsplit_cut fun c hc => ?_⟩
    simpa using a.of_mem_text (ne_of_isWord (by decide)) (by decide) c hc
  have hpieces := filter_trim_joined_self isSplitter_cut (unsplit_cut (by simp)) hsplit
  rw [Attributes.ofText_eq, hpieces, List.map_map]
  exact List.map_congr_left fun a _ => a.entryOf_text

/-- Attributes in front of a declaration are taken, and the declaration is left. -/
theorem takeBrackets_listText (as : List Attribute) (hs : StartsTight s)
    (hb : s.head? ≠ some '[') :
    ∃ brackets rest, takeBrackets (listText as ++ s) = some (brackets, rest) ∧
      Attributes.ofText? brackets = as.map entry ∧ trimLeft rest = s := by
  cases as with
  | nil =>
    refine ⟨none, s, ?_, rfl, trimLeft_of_startsTight hs⟩
    cases s with
    | nil => rfl
    | cons c rest =>
      have hc : c ≠ '[' := by simpa using hb
      rw [listText, List.nil_append, takeBrackets]
      simpa using hc
  | cons a as =>
    have hinner : ∀ c ∈ joined ((a :: as).map text), c ≠ ']' :=
      forall_mem_joined (by decide) (by decide) fun x hx => by
        obtain ⟨b, -, rfl⟩ := List.mem_map.mp hx
        exact b.of_mem_text (ne_of_isWord (by decide)) (by decide)
    refine ⟨some (joined ((a :: as).map text)), ' ' :: s, ?_, ofText_joined _,
      trimLeft_append (b := [' ']) rfl hs⟩
    rw [listText, List.cons_append, List.append_assoc]
    · exact takeBrackets_cons hinner (' ' :: s)
    · exact List.cons_ne_nil a as

end Attribute

/-! ## Fields and arguments -/

namespace Field

/-- The text of a field has no blanks at its ends. -/
theorem tight (f : Field) : Tight f.text :=
  ⟨f.type.tight.starts.append _, .append _ (.cons _ f.name.tight.ends)⟩

/-- The characters of a field may stand in a type. -/
theorem isTypeChar_of_mem (f : Field) : ∀ c ∈ f.text, isTypeChar c = true := by
  simp only [text, List.forall_mem_append, List.forall_mem_cons]
  exact ⟨f.type.isTypeChar_of_mem, rfl, fun c hc => isTypeChar_of_isWord (f.name.isWord_of_mem hc)⟩

end Field

/-- A type, a blank and a name are read as such. -/
theorem split?_text (margin : Bool) (t : TypeTree) (name : Word) :
    TypedName.split? margin (t.text ++ ' ' :: name.chars) = some ⟨t.text, name.chars⟩ := by
  have hsplit : splitTail isWord (t.text ++ ' ' :: name.chars) = (t.text ++ [' '], name.chars) := by
    have h : splitTail isWord ((t.text ++ [' ']) ++ name.chars) = (t.text ++ [' '], name.chars) :=
      splitTail_append_of_forall (fun c => name.isWord_of_mem) (by simp; decide)
    rwa [List.append_assoc] at h
  have hall : (t.text ++ [' ']).all isTypeChar = true := by
    simp only [List.all_eq_true, List.forall_mem_append, List.forall_mem_singleton]
    exact ⟨t.isTypeChar_of_mem, rfl⟩
  have hblank : ((t.text ++ [' ']).getLast?.map isBlank).getD false = true := by
    simp [isBlank]
  simp only [TypedName.split?, hsplit, hall, hblank, t.normalType_text_blank]
  simp [name.ne_nil]

/-- A field is read as it is declared. -/
theorem readField_text (line : Nat) (f : Field) : readField line f.text = .ok f.declared := by
  rw [readField, field?, Field.text, split?_text]
  rfl

/-- The arguments between parentheses are the fields that are written there. -/
theorem argumentTexts_joined (inputs : List Field) :
    argumentTexts (joined (inputs.map Field.text)) = inputs.map Field.text := by
  have plain (s : List Char) (h : ∀ c ∈ s, c ≠ ',' ∧ c ≠ '<' ∧ c ≠ '>') :
      Unsplit (splitTopLevel 0) s := splitTopLevel_append h
  have hblank : Unsplit (splitTopLevel 0) [' '] :=
    plain _ (List.forall_mem_singleton.mpr (by decide))
  have hsplit : ∀ x ∈ inputs.map Field.text, Tight x ∧ Unsplit (splitTopLevel 0) x := by
    intro x hx
    obtain ⟨f, -, rfl⟩ := List.mem_map.mp hx
    have htype : Unsplit (splitTopLevel 0) f.type.text :=
      f.type.splitTopLevel_text_append (by decide)
    have hname : Unsplit (splitTopLevel 0) f.name.chars := plain _ fun c hc =>
      ⟨f.name.ne_of_mem hc (by decide), f.name.ne_of_mem hc (by decide),
        f.name.ne_of_mem hc (by decide)⟩
    exact ⟨f.tight, htype.append (hblank.append hname)⟩
  exact filter_trim_joined_self isSplitter_splitTopLevel hblank hsplit

private theorem readArguments (line : Nat) (inputs : List Field) :
    (argumentTexts (joined (inputs.map Field.text))).mapM (readField line) =
      .ok (inputs.map Field.declared) := by
  rw [argumentTexts_joined]
  exact mapM_map fun f _ => readField_text line f

private theorem argumentsText?_argumentsText (inputs : List Field) :
    argumentsText? (argumentsText inputs) = some (joined (inputs.map Field.text)) := by
  have hinner : ∀ c ∈ joined (inputs.map Field.text), isTypeChar c = true :=
    forall_mem_joined (P := (isTypeChar · = true)) rfl rfl fun x hx => by
      obtain ⟨f, -, rfl⟩ := List.mem_map.mp hx
      exact f.isTypeChar_of_mem
  have hclose {d : Char} (hd : isTypeChar d = false) :
      ∀ c ∈ joined (inputs.map Field.text), c ≠ d :=
    fun c hc => ne_of_isTypeChar hd c (hinner c hc)
  have hsplit : splitTail (· == ')') (joined (inputs.map Field.text) ++ [')']) =
      (joined (inputs.map Field.text), [')']) :=
    splitTail_append_of_forall (by simp) fun c hc => by
      simpa using hclose (by decide) c (List.mem_of_getLast? hc)
  have hnone : (joined (inputs.map Field.text)).any (fun c => c == '(' || c == ')') = false := by
    rw [List.any_eq_false]
    intro c hc
    simp [hclose (d := '(') (by decide) c hc, hclose (d := ')') (by decide) c hc]
  simp [argumentsText, argumentsText?, hsplit, hnone]

/-! ## Functions -/

namespace Function

/-- What stands in front of the arguments. -/
def head (f : Function) : List Char := f.resultTree.text ++ ' ' :: f.name.chars

/-- The text of a function is its attributes, its head and its arguments. -/
theorem text_eq (f : Function) :
    f.text = Attribute.listText f.attributes ++ (f.head ++ argumentsText f.inputs) := by
  simp [text, head]

/-- The characters of a head may stand in a type. -/
theorem isTypeChar_of_mem_head (f : Function) : ∀ c ∈ f.head, isTypeChar c = true := by
  simp only [head, List.forall_mem_append, List.forall_mem_cons]
  exact ⟨f.resultTree.isTypeChar_of_mem, rfl,
    fun c hc => isTypeChar_of_isWord (f.name.isWord_of_mem hc)⟩

/-- A head has no blanks at its ends. -/
theorem tight_head (f : Function) : Tight f.head :=
  ⟨f.resultTree.tight.starts.append _, .append _ (.cons _ f.name.tight.ends)⟩

private theorem head?_head_append (f : Function) (s : List Char) :
    (f.head ++ s).head? ≠ some '[' := by
  obtain ⟨c, rest, h, -⟩ := f.tight_head.starts
  have hc := f.isTypeChar_of_mem_head c (h ▸ List.mem_cons_self)
  rw [h]
  simpa using ne_of_isTypeChar (d := '[') (by decide) c hc

private theorem callable?_text (f : Function) :
    callable? f.text = some
      ⟨f.attributes.map Attribute.entry, f.resultTree.text, f.name.chars,
        joined (f.inputs.map Field.text)⟩ := by
  have hhead : ∀ c ∈ f.head, (c != '(') = true := fun c hc => by
    simpa using ne_of_isTypeChar (by decide) c (f.isTypeChar_of_mem_head c hc)
  have htake : (f.head ++ argumentsText f.inputs).takeWhile (· != '(') = f.head := by
    rw [List.takeWhile_append_of_pos hhead]
    simp [argumentsText]
  have hdrop : (f.head ++ argumentsText f.inputs).dropWhile (· != '(') =
      argumentsText f.inputs := by
    rw [List.dropWhile_append_of_pos hhead]
    simp [argumentsText]
  obtain ⟨brackets, rest, hb, ha, hr⟩ := Attribute.takeBrackets_listText f.attributes
    (f.tight_head.starts.append (argumentsText f.inputs)) (f.head?_head_append _)
  simp only [callable?, f.text_eq, hb, hr, ha, Option.bind_eq_bind, Option.bind_some, htake, hdrop,
    argumentsText?_argumentsText, trimRight_of_endsTight f.tight_head.ends]
  rw [head, split?_text]
  rfl

/-- The attributes of a function say what it throws and whether it is asynchronous. -/
theorem value?_attributes (f : Function) :
    Attributes.value? (f.attributes.map Attribute.entry) "Throws" = f.throws.map Word.string ∧
      Attributes.has (f.attributes.map Attribute.entry) "Async" = f.isAsync := by
  obtain ⟨throws, isAsync, result, name, inputs⟩ := f
  cases throws <;> cases isAsync <;> exact ⟨rfl, rfl⟩

private theorem resultType_resultTree (f : Function) :
    resultType f.resultTree.text =
      Value.ofText? (f.result.map fun t => String.ofList t.1.text) := by
  rw [resultTree]
  cases f.result with
  | none => rfl
  | some t => exact if_neg t.2

/-- A function is read as it is declared. -/
theorem readFunction_text (crate : Value) (line : Nat) (f : Function) :
    readFunction crate line f.text = .ok (f.declared crate) := by
  rw [readFunction, f.callable?_text]
  simp only [readArguments, f.value?_attributes, f.resultType_resultTree]
  rfl

end Function

/-! ## Constructors -/

namespace Constructor

private theorem constructor?_text (c : Constructor) :
    constructor? c.text = some
      ⟨c.attributes.map Attribute.entry, joined (c.inputs.map Field.text)⟩ := by
  obtain ⟨brackets, rest, hb, ha, hr⟩ := Attribute.takeBrackets_listText c.attributes
    (s := "constructor".toList ++ argumentsText c.inputs) (.cons rfl _) (by simp)
  have hargs : trimLeft (argumentsText c.inputs) = argumentsText c.inputs :=
    trimLeft_of_startsTight (.cons rfl _)
  simp only [constructor?, text, hb, hr, ha, Option.bind_eq_bind, Option.bind_some,
    afterPrefix?_append, hargs, argumentsText?_argumentsText]
  rfl

/-- The attributes of a constructor give its name and say what it throws. -/
theorem value?_attributes (c : Constructor) :
    Attributes.value? (c.attributes.map Attribute.entry) "Name" = c.name?.map Word.string ∧
      Attributes.value? (c.attributes.map Attribute.entry) "Throws" = c.throws.map Word.string := by
  obtain ⟨name?, throws, inputs⟩ := c
  cases name? <;> cases throws <;> exact ⟨rfl, rfl⟩

end Constructor

private theorem argumentsText?_cons (hc : c ≠ '(') (s : List Char) :
    argumentsText? (c :: s) = none := by
  rw [argumentsText?]
  simpa using hc

/-- What is left of the head of a function behind a word without blanks holds a character that is no
blank. -/
theorem Function.exists_of_head_eq {f : Function} {word rest : List Char} (hw : ' ' ∉ word)
    (h : f.head = word ++ rest) : ∃ c ∈ rest, isBlank c = false := by
  have hrest : rest ≠ [] := by
    rintro rfl
    rw [List.append_nil] at h
    exact hw (h ▸ by simp [head])
  obtain ⟨front, c, hend, hc⟩ := f.tight_head.ends
  have hlast : (word ++ rest).getLast? = some c := by rw [← h, hend]; simp
  rw [List.getLast?_append, List.getLast?_eq_some_getLast hrest] at hlast
  exact ⟨c, Option.some.inj hlast ▸ List.getLast_mem hrest, hc⟩

/-- No callable with a result in front of its name is a constructor. If the result starts like one,
type characters and the name stand between that start and the arguments. -/
theorem Function.constructor?_text (f : Function) : constructor? f.text = none := by
  obtain ⟨brackets, rest, hb, -, hr⟩ := Attribute.takeBrackets_listText f.attributes
    (f.tight_head.starts.append (argumentsText f.inputs)) (f.head?_head_append _)
  simp only [constructor?, f.text_eq, hb, hr, Option.bind_eq_bind, Option.bind_some]
  cases hp : afterPrefix? "constructor".toList (f.head ++ argumentsText f.inputs) with
  | none => rfl
  | some after =>
    have hword : ' ' ∉ "constructor".toList := by decide
    rcases List.append_eq_append_iff.mp (eq_append_of_afterPrefix? hp) with
      ⟨more, hmore, -⟩ | ⟨between, hhead, hafter⟩
    · exact absurd (hmore ▸ List.mem_append_left more (by simp [head])) hword
    · obtain ⟨d, hd, hblank⟩ := f.exists_of_head_eq hword hhead
      have hne : trimLeft between ≠ [] := by
        intro he
        rw [List.dropWhile_eq_nil_iff.mp he d hd] at hblank
        cases hblank
      obtain ⟨e, others, he⟩ := List.exists_cons_of_ne_nil hne
      have hmem : e ∈ f.head := by
        rw [hhead]
        exact List.mem_append_right _
          ((List.dropWhile_sublist isBlank).subset (he ▸ List.mem_cons_self : e ∈ trimLeft between))
      have htrim : trimLeft after = e :: (others ++ argumentsText f.inputs) := by
        rw [hafter, trimLeft, List.dropWhile_append, ← trimLeft, he]
        rfl
      simp only [Option.bind_some, htrim,
        argumentsText?_cons (ne_of_isTypeChar (by decide) e (f.isTypeChar_of_mem_head e hmem)),
        Option.bind_none]

namespace Member

/-- A member of an object is read as the item that it declares. -/
theorem readObjectMember_text (crate : Value) (object : Word) (line : Nat) (m : Member) :
    readObjectMember crate object.string line m.text = .ok (m.item crate object) := by
  cases m with
  | constructor c =>
    rw [readObjectMember, text, c.constructor?_text]
    simp only [readArguments, c.value?_attributes]
    cases hn : c.name? with
    | none => simp [item, Constructor.declared, hn, ok_bind, pure, Except.pure]
    | some w =>
      simp [item, Constructor.declared, hn, ok_bind, pure, Except.pure, w.ne_nil, Word.string]
  | method f =>
    rw [readObjectMember, text, f.constructor?_text, f.readFunction_text]
    rfl

end Member
end Grammar
end BindGen.Udl

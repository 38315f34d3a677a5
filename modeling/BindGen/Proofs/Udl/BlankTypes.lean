import BindGen.Proofs.Metadata.Typed
import BindGen.Proofs.Udl.Sequence
import BindGen.Proofs.Udl.TypeTokens

/-!
# Declarations without a type

Every field and every argument of an accepted text has a type. A function, a method or another name
for a type may be written without one where two blanks more than needed stand in front of its name:
one counts as the type, one as the gap behind it. Those are exactly the declarations whose type is
read as blank.
-/

namespace BindGen

/-- The fields and arguments of an item, with those of its variants and methods. -/
def Item.typedNames : Item → List Field
  | function d => d.inputs
  | constructor d => d.inputs
  | method d => d.inputs
  | record d => d.fields
  | enum d => d.variants.flatMap Variant.fields
  | callbackInterface d => d.methods.flatMap FunctionDecl.inputs
  | _ => []

/-- The result types of an item and of its methods, and the type that it is another name for. -/
def Item.ownTypes : Item → List Value
  | function d => [d.returnType]
  | method d => [d.returnType]
  | callbackInterface d => d.methods.map FunctionDecl.returnType
  | customType d => [d.builtin]
  | _ => []

namespace Udl

open Text

variable {s m : List Char} {crate : Value} {line : Nat}

/-! ## Types and names -/

/-- The normal form of a type starts as the type does. -/
theorem normalType_ne_nil (hs : StartsTight s) : normalType s ≠ [] := by
  obtain ⟨c, rest, rfl, hc⟩ := hs
  rw [normalType_eq_render, TypeToken.scan]
  simp only [hc, Bool.false_eq_true, if_false]
  split
  · by_cases hcomma : c = ','
    · simp [TypeToken.render, hcomma]
    · simp [TypeToken.render, hcomma]
  · generalize TypeToken.scan rest = tokens, rest.head?.any (fun d => !isBlank d) = glued
    -- a character goes to the front of the word behind it, or is a word of its own
    cases glued <;> rcases tokens with _ | ⟨_ | w, _ | ⟨_ | v, tokens⟩⟩ <;>
      exact List.cons_ne_nil c _

/-- A type is blank only where the name stands alone, which takes a margin. -/
theorem split?_type {margin : Bool} {t : TypedName} (hs : StartsTight s)
    (h : TypedName.split? margin s = some t) :
    (t.type = [] ↔ isWordText s = true) ∧
      (isWordText s = true → margin = true ∧ t.name = s) := by
  have hparts := splitTail_append isWord s
  have hword : ∀ c ∈ (splitTail isWord s).2, isWord c = true := by
    intro c hc
    exact List.mem_takeWhile_imp (List.mem_reverse.mp hc)
  have halone : isWordText s = true ↔ (splitTail isWord s).1 = [] := by
    rw [isWordText_eq_true_iff]
    constructor
    · rintro ⟨-, hall⟩
      have hsplit : splitTail isWord ([] ++ s) = ([], s) :=
        splitTail_append_of_forall hall fun c hc => nomatch hc
      rw [List.nil_append] at hsplit
      rw [hsplit]
    · intro hnil
      rw [hnil, List.nil_append] at hparts
      exact ⟨hs.ne_nil, hparts ▸ hword⟩
  rw [halone]
  unfold TypedName.split? at h
  generalize splitTail isWord s = parts at h hparts
  obtain ⟨front, name⟩ := parts
  dsimp only at h hparts ⊢
  by_cases hunfit : (name.isEmpty || !front.all isTypeChar) = true
  · rw [if_pos hunfit] at h
    cases h
  rw [if_neg hunfit] at h
  cases front with
  | nil =>
    cases margin with
    | false => cases h
    | true =>
      obtain rfl := Option.some.inj h
      exact ⟨Iff.rfl, fun _ => ⟨rfl, hparts⟩⟩
  | cons c front =>
    have hc : isBlank c = false := by
      obtain ⟨d, rest, hd, hblank⟩ := hs
      rw [hd] at hparts
      obtain rfl := (List.cons.inj hparts).1
      exact hblank
    simp only [List.isEmpty_cons, Bool.false_eq_true, if_false] at h
    split at h
    · obtain rfl := Option.some.inj h
      have hne : normalType (c :: front) ≠ [] := normalType_ne_nil (.cons hc front)
      exact ⟨⟨fun hnil => absurd hnil hne, nofun⟩, nofun⟩
    · cases h

private theorem field?_type_ne_nil {t : TypedName} (hs : StartsTight s) (h : field? s = some t) :
    t.type ≠ [] := by
  intro hnil
  obtain ⟨hiff, hmargin⟩ := split?_type hs h
  cases (hmargin (hiff.mp hnil)).1

/-- The arguments of a callable start with no blank. -/
theorem startsTight_of_mem_argumentTexts {a : List Char} (h : a ∈ argumentTexts s) :
    StartsTight a := by
  obtain ⟨hmem, hne⟩ := List.mem_filter.mp h
  obtain ⟨part, -, rfl⟩ := List.mem_map.mp hmem
  cases hb : allBlank part with
  | true =>
    rw [trim_of_allBlank hb] at hne
    cases hne
  | false =>
    obtain ⟨lead, trail, -, -, -, -, htight⟩ := exists_tight_trim hb
    exact htight.starts

/-- A function or method that is written without a type, its name, and the number of blanks in front
of the name that nothing else needs. -/
inductive UntypedMember : List Char → List Char → Nat → Prop where
  | listed {attributes gap name blanks arguments : List Char} (hattributes : ∀ c ∈ attributes, c ≠ ']')
    (hgap : allBlank gap = true) (hname : isWordText name = true) (hblanks : allBlank blanks = true) :
    UntypedMember ('[' :: (attributes ++ ']' :: (gap ++ (name ++ (blanks ++ '(' :: arguments)))))
      name gap.length
  | bare {name blanks arguments : List Char} (hname : isWordText name = true)
    (hblanks : allBlank blanks = true) :
    UntypedMember (name ++ (blanks ++ '(' :: arguments)) name 0

-- A name in front of arguments: where it starts, and that it is all in front of them.
private theorem untyped_head {name blanks : List Char} (hname : isWordText name = true)
    (hblanks : allBlank blanks = true) (arguments : List Char) :
    StartsTight (name ++ (blanks ++ '(' :: arguments)) ∧
      (name ++ (blanks ++ '(' :: arguments)).head? ≠ some '[' ∧
      trimRight ((name ++ (blanks ++ '(' :: arguments)).takeWhile (· != '(')) = name := by
  obtain ⟨hne, hall⟩ := isWordText_eq_true_iff.mp hname
  have htight := tight_of_isWordText hname
  refine ⟨htight.starts.append _, ?_, ?_⟩
  · obtain ⟨c, rest, rfl⟩ := List.exists_cons_of_ne_nil hne
    rintro ⟨rfl⟩
    exact absurd (hall '[' List.mem_cons_self) (by decide)
  · have hinside : ∀ c ∈ name ++ blanks, (c != '(') = true := by
      intro c hc
      rw [bne_iff_ne]
      rintro rfl
      rcases List.mem_append.mp hc with hc | hc
      · exact absurd (hall '(' hc) (by decide)
      · exact absurd (isBlank_of_mem_allBlank hblanks hc) (by decide)
    have hstop : ∀ c, ('(' :: arguments).head? = some c → (c != '(') = false := by
      rintro c ⟨rfl⟩
      rfl
    rw [← List.append_assoc, (takeWhile_run hinside hstop).1, trimRight_append hblanks htight.ends]

/-- A callable without a type has a blank result type, and two blanks that nothing else needs. -/
theorem UntypedMember.of_callable? {name : List Char} {spare : Nat} {found : CallableText}
    (hu : UntypedMember m name spare) (h : callable? m = some found) :
    found.result = [] ∧ 2 ≤ spare := by
  simp only [callable?, Option.bind_eq_bind, Option.bind_eq_some_iff] at h
  obtain ⟨⟨brackets, rest⟩, hbrackets, arguments', -, typed, htyped, h⟩ := h
  cases h
  cases hu with
  | @listed attributes gap name blanks arguments hattributes hgap hname hblanks =>
    obtain ⟨hstarts, -, hhead⟩ := untyped_head hname hblanks arguments
    rw [takeBrackets_cons hattributes] at hbrackets
    obtain ⟨rfl, rfl⟩ := Prod.mk.inj (Option.some.inj hbrackets)
    rw [trimLeft_append hgap hstarts, hhead, List.length_append, Nat.add_sub_cancel] at htyped
    obtain ⟨hblank, hmargin⟩ := split?_type (tight_of_isWordText hname).starts htyped
    exact ⟨hblank.mpr hname, by simpa using (hmargin hname).1⟩
  | @bare name blanks arguments hname hblanks =>
    obtain ⟨hstarts, hbare, hhead⟩ := untyped_head hname hblanks arguments
    have hlead : Lead none [] := .bare rfl
    obtain ⟨rest', hrest, htrim⟩ := hlead.takeBrackets hstarts hbare
    rw [List.nil_append, trimLeft_of_startsTight hstarts, hbrackets] at hrest
    obtain ⟨rfl, rfl⟩ := Prod.mk.inj (Option.some.inj hrest)
    rw [htrim, hhead] at htyped
    cases ((split?_type (tight_of_isWordText hname).starts htyped).2 hname).1

/-- A callable with a blank result type is written without a type. -/
theorem exists_untyped_of_callable? {found : CallableText} (hm : StartsTight m)
    (h : callable? m = some found) (hblank : found.result = []) :
    ∃ name spare, UntypedMember m name spare := by
  simp only [callable?, Option.bind_eq_bind, Option.bind_eq_some_iff] at h
  obtain ⟨⟨brackets, rest⟩, hbrackets, arguments, harguments, typed, htyped, h⟩ := h
  cases h
  dsimp only at htyped harguments hblank
  set declaration := trimLeft rest with hdeclaration
  obtain ⟨blanks, hblanks, hhead⟩ := eq_trimRight_append (declaration.takeWhile (· != '('))
  have hopen : ∃ behind, declaration.dropWhile (· != '(') = '(' :: behind := by
    unfold argumentsText? at harguments
    split at harguments
    · next behind hbehind => exact ⟨behind, hbehind⟩
    · cases harguments
  obtain ⟨behind, hopen⟩ := hopen
  have hsplit : declaration =
      trimRight (declaration.takeWhile (· != '(')) ++ (blanks ++ '(' :: behind) := by
    rw [← List.append_assoc, ← hhead, ← hopen, List.takeWhile_append_dropWhile]
  set name := trimRight (declaration.takeWhile (· != '('))
  have hstarts : StartsTight name := by
    apply startsTight_of_trimLeft (hdeclaration.symm.trans hsplit)
    intro hnil
    rw [hnil] at htyped
    cases htyped
  obtain ⟨hiff, hmargin⟩ := split?_type hstarts htyped
  have hname := hiff.mp hblank
  -- the margin shows that there are brackets
  cases brackets with
  | none => cases (hmargin hname).1
  | some attributes =>
    rw [← trimLeft_of_startsTight hm] at hbrackets
    obtain ⟨lead, hlead, hm'⟩ := exists_lead_of_takeBrackets hbrackets
    rw [← hdeclaration, hsplit] at hm'
    cases hlead with
    | @listed lead _ gap hblank hattributes hgap =>
      refine ⟨name, gap.length, ?_⟩
      have hfront :
          m = '[' :: (attributes ++ ']' :: (gap ++ (name ++ (blanks ++ '(' :: behind)))) := by
        rw [List.append_assoc, List.cons_append, List.append_assoc, List.cons_append] at hm'
        rw [← trimLeft_of_startsTight hm, hm', trimLeft_append hblank (.cons rfl _)]
      rw [hfront]
      exact .listed hattributes hgap hname hblanks

/-! ## Fields, arguments and results -/

private theorem ofList_eq_empty_iff {l : List Char} : String.ofList l = "" ↔ l = [] := by
  constructor
  · intro h
    simpa using congrArg String.toList h
  · rintro rfl
    rfl

private theorem readField_type {f : Field} (hs : StartsTight s) (h : readField line s = .ok f) :
    f.type ≠ "" := by
  unfold readField at h
  cases hf : field? s with
  | none =>
    rw [hf] at h
    cases h
  | some typed =>
    rw [hf] at h
    obtain rfl := Except.ok.inj h
    intro hempty
    exact field?_type_ne_nil hs hf (ofList_eq_empty_iff.mp (LooseText.proper.inj hempty))

private theorem readArguments_type {fields : List Field}
    (h : (argumentTexts s).mapM (readField line) = .ok fields) : ∀ f ∈ fields, f.type ≠ "" :=
  forall_mem_of_mapM (fun _ ha _ hf => readField_type (startsTight_of_mem_argumentTexts ha) hf) h

private theorem text_ofList_eq_empty_iff {l : List Char} :
    Value.text (String.ofList l) = .text "" ↔ l = [] := by simp

private theorem resultType_eq_empty_iff {type : List Char} :
    resultType type = .text "" ↔ type = [] := by
  unfold resultType
  by_cases hv : type = "void".toList
  · rw [if_pos hv, hv]
    simp
  · rw [if_neg hv, text_ofList_eq_empty_iff]

private theorem readFunction_types {d : FunctionDecl} (hm : StartsTight m)
    (h : readFunction crate line m = .ok d) :
    (∀ f ∈ d.inputs, f.type ≠ "") ∧
      (d.returnType = .text "" ↔ ∃ name spare, UntypedMember m name spare) ∧
      ∀ name spare, UntypedMember m name spare → 2 ≤ spare := by
  unfold readFunction at h
  cases hc : callable? m with
  | none =>
    rw [hc] at h
    cases h
  | some found =>
    rw [hc] at h
    obtain ⟨inputs, hinputs, h⟩ := exists_of_bind_eq_ok h
    obtain rfl := Except.ok.inj h
    refine ⟨readArguments_type hinputs, ?_, fun _ _ hu => (hu.of_callable? hc).2⟩
    rw [resultType_eq_empty_iff]
    exact ⟨exists_untyped_of_callable? hm hc, fun ⟨_, _, hu⟩ => (hu.of_callable? hc).1⟩

/-- A member of a definition that is a function or method without a type. -/
structure UntypedIn (k : Keyword) (m : List Char) (spare : Nat) : Prop where
  keyword : k ≠ .dictionary ∧ k ≠ .enum
  notConstructor : k = .interface → constructor? m = none
  member : ∃ name, UntypedMember m name spare

private theorem readFunction_untypedIn {d : FunctionDecl} {k : Keyword}
    (hk : k ≠ .dictionary ∧ k ≠ .enum)
    (hc : k = .interface → constructor? m = none) (hm : StartsTight m)
    (h : readFunction crate line m = .ok d) :
    (∀ f ∈ d.inputs, f.type ≠ "") ∧ (.text "" = d.returnType ↔ ∃ spare, UntypedIn k m spare) ∧
      ∀ spare, UntypedIn k m spare → 2 ≤ spare := by
  obtain ⟨hinputs, hresult, hspare⟩ := readFunction_types hm h
  refine ⟨hinputs, eq_comm.trans (hresult.trans ?_), fun spare hu =>
    hu.member.elim fun name => hspare name spare⟩
  constructor
  · rintro ⟨name, spare, hu⟩
    exact ⟨spare, hk, hc, name, hu⟩
  · rintro ⟨spare, hu⟩
    obtain ⟨name, hu⟩ := hu.member
    exact ⟨name, spare, hu⟩

/-- The types that reading a member gives. -/
theorem read_types {k : Keyword} {name : String} {r : MemberReader} {a : r.Result}
    (hr : k.reader? crate name = some r) (hm : StartsTight m) (h : r.read line m = .ok a) :
    (∀ f ∈ (r.items [a]).flatMap Item.typedNames, f.type ≠ "") ∧
      (.text "" ∈ (r.items [a]).flatMap Item.ownTypes ↔ ∃ spare, UntypedIn k m spare) ∧
      ∀ spare, UntypedIn k m spare → 2 ≤ spare := by
  cases k with
  | enum => cases hr
  | namespaceDecl =>
    cases hr
    obtain ⟨d, hd, rfl⟩ := exists_of_map_eq_ok h
    simpa [Item.typedNames, Item.ownTypes] using
      readFunction_untypedIn (k := .namespaceDecl) (by decide) (by simp) hm hd
  | dictionary =>
    cases hr
    have hnot (spare : Nat) : ¬ UntypedIn .dictionary m spare := fun hu => hu.keyword.1 rfl
    simpa [Item.typedNames, Item.ownTypes, hnot] using readField_type hm h
  | interface =>
    cases hr
    cases hc : constructor? m with
    | some found =>
      have hnot (spare : Nat) : ¬ UntypedIn .interface m spare := fun hu => by
        rw [hu.notConstructor rfl] at hc
        cases hc
      simp only [readObjectMember, hc] at h
      obtain ⟨inputs, hinputs, h⟩ := exists_of_bind_eq_ok h
      obtain rfl := Except.ok.inj h
      simpa [Item.typedNames, Item.ownTypes, hnot] using readArguments_type hinputs
    | none =>
      simp only [readObjectMember, hc] at h
      obtain ⟨d, hd, h⟩ := exists_of_bind_eq_ok h
      obtain rfl := Except.ok.inj h
      simpa [Item.typedNames, Item.ownTypes] using
        readFunction_untypedIn (k := .interface) (by decide) (fun _ => hc) hm hd
  | callbackInterface =>
    cases hr
    simpa [Item.typedNames, Item.ownTypes] using
      readFunction_untypedIn (k := .callbackInterface) (by decide) (by simp) hm h

/-- The types of the items that members make are those that each makes. -/
theorem items_types {k : Keyword} {name : String} {r : MemberReader}
    (hr : k.reader? crate name = some r) (results : List r.Result) :
    (r.items results).flatMap Item.typedNames =
        results.flatMap (fun a => (r.items [a]).flatMap Item.typedNames) ∧
      (r.items results).flatMap Item.ownTypes =
        results.flatMap fun a => (r.items [a]).flatMap Item.ownTypes := by
  cases k with
  | enum => cases hr
  | namespaceDecl =>
    cases hr
    simp
  | dictionary =>
    cases hr
    simp [Item.typedNames, Item.ownTypes]
  | interface =>
    cases hr
    have hobject (d : ObjectDecl) : (Item.object d).typedNames = [] ∧ (Item.object d).ownTypes = [] :=
      ⟨rfl, rfl⟩
    simp [hobject]
  | callbackInterface =>
    cases hr
    simp [Item.typedNames, Item.ownTypes, List.map_eq_flatMap]

/-! ## Definitions without a type -/

/-- A definition with a declaration that has no type, and the number of blanks in front of the name
that nothing else needs; of those in front of the name of another name for a type, the first is
needed behind the keyword. -/
inductive Written.Untyped : Written → Nat → Prop where
  | typedef {w : AliasText} (h : isWordText (trimRight w.content) = true) :
    (typedef w).Untyped (w.gap.length - 1)
  | member {w : BlockText} {p : Placed} {spare : Nat} (hp : p ∈ members 0 w.body)
    (h : UntypedIn w.keyword p.text spare) : (block w).Untyped spare

private theorem startsTight_trimRight (h : StartsTight s) : StartsTight (trimRight s) := by
  obtain ⟨trail, htrail, hs⟩ := eq_trimRight_append s
  apply startsTight_of_trimLeft ((trimLeft_of_startsTight h).trans hs)
  intro hnil
  rw [hnil, List.nil_append] at hs
  rw [← hs, h.allBlank_eq_false] at htrail
  cases htrail

/-- What the types of the items of a definition are like. -/
structure TypesOf (d : Written) (items : List Item) : Prop where
  typedNames : ∀ f ∈ items.flatMap Item.typedNames, f.type ≠ ""
  ownTypes : .text "" ∈ items.flatMap Item.ownTypes ↔ ∃ spare, d.Untyped spare
  spare : ∀ spare, d.Untyped spare → 2 ≤ spare

private theorem typesOf_typedef {w : AliasText} {items : List Item}
    (h : (Written.typedef w).items? crate = some items) : TypesOf (.typedef w) items := by
  obtain rfl := Option.some.inj h
  obtain ⟨hiff, hmargin⟩ := split?_type (startsTight_trimRight w.starts) w.isTyped
  refine ⟨List.forall_mem_nil _, ?_, ?_⟩
  · have hblank : .text "" ∈ [Value.text (String.ofList w.declared.builtin)] ↔
        isWordText (trimRight w.content) = true := by
      rw [← hiff, List.mem_singleton, eq_comm, text_ofList_eq_empty_iff]
      rfl
    refine hblank.trans ⟨fun hname => ⟨_, .typedef hname⟩, ?_⟩
    rintro ⟨spare, hu⟩
    cases hu with
    | typedef hname => exact hname
  · intro spare hu
    cases hu with
    | typedef hname =>
      have := (hmargin hname).1
      simp only [ge_iff_le, decide_eq_true_eq] at this
      omega

private theorem typesOf_enum {w : BlockText} {items : List Item} (hk : w.keyword = .enum)
    (h : w.items? crate = some items) : TypesOf (.block w) items := by
  have hread := (w.readBlock_eq_ok_iff [] 0).mpr h
  simp only [readBlock, BlockText.block, hk] at hread
  obtain ⟨variants, hvariants, hread⟩ := exists_of_bind_eq_ok hread
  obtain rfl := Except.ok.inj hread
  have hnot (spare : Nat) : ¬ (Written.block w).Untyped spare := by
    intro hu
    cases hu with
    | member hp hu => exact hu.keyword.2 hk
  have hfields : ∀ v ∈ variants, v.fields = [] := by
    refine forall_mem_of_mapM (fun part _ v hv => ?_) hvariants
    cases hn : variantName? part with
    | none =>
      rw [hn] at hv
      cases hv
    | some name =>
      rw [hn] at hv
      obtain rfl := Except.ok.inj hv
      rfl
  refine ⟨?_, ?_, fun spare hu => absurd hu (hnot spare)⟩
  · simpa [Item.typedNames] using fun f v hv hf => by
      rw [hfields v hv] at hf
      cases hf
  · simp [Item.ownTypes, hnot]

private theorem typesOf_members {w : BlockText} {items : List Item} {r : MemberReader}
    (hr : w.keyword.reader? crate (String.ofList w.name) = some r)
    (h : w.items? crate = some items) : TypesOf (.block w) items := by
  have hread := (w.readBlock_eq_ok_iff [] 0).mpr h
  obtain ⟨-, results, rfl, hall⟩ := (readBlock_eq_ok_iff (b := w.block 0) hr).mp hread
  obtain ⟨htyped, hown⟩ := items_types hr results
  have hplaced := List.forall₂_map_left_iff.mp hall
  have htypes {p : Placed} {a : r.Result} (hp : p ∈ members 0 w.body)
      (ha : ∀ line, r.read line p.text = .ok a) :=
    read_types hr (memberAt_of_mem hp).tight.starts (ha 0)
  refine ⟨?_, ?_, ?_⟩
  · intro f hf
    rw [htyped] at hf
    obtain ⟨a, ha, hf⟩ := List.mem_flatMap.mp hf
    obtain ⟨p, hp, hpa⟩ := exists_mem_of_forall₂ hplaced.flip ha
    exact (htypes hp hpa).1 f hf
  · rw [hown, List.mem_flatMap]
    constructor
    · rintro ⟨a, ha, hblank⟩
      obtain ⟨p, hp, hpa⟩ := exists_mem_of_forall₂ hplaced.flip ha
      obtain ⟨spare, hu⟩ := (htypes hp hpa).2.1.mp hblank
      exact ⟨spare, .member hp hu⟩
    · rintro ⟨spare, hu⟩
      cases hu with
      | member hp hu =>
        obtain ⟨a, ha, hpa⟩ := exists_mem_of_forall₂ hplaced hp
        exact ⟨a, ha, (htypes hp hpa).2.1.mpr ⟨spare, hu⟩⟩
  · intro spare hu
    cases hu with
    | member hp hu =>
      obtain ⟨a, -, hpa⟩ := exists_mem_of_forall₂ hplaced hp
      exact (htypes hp hpa).2.2 spare hu

private theorem typesOf_items? {d : Written} {items : List Item} (h : d.items? crate = some items) :
    TypesOf d items := by
  cases d with
  | typedef w => exact typesOf_typedef h
  | block w =>
    cases hr : w.keyword.reader? crate (String.ofList w.name) with
    | none => exact typesOf_enum (eq_enum_of_reader? hr) h
    | some r => exact typesOf_members hr h

/-- The types of an accepted text. Every field and argument has one. A result type, or the type that
a name stands for, is blank exactly in the declarations that are written without a type; those are
only accepted where two blanks that nothing else needs stand in front of the name. -/
theorem read_blank_types {text : String} {g : Group} (h : read text crate = .ok g) :
    (∀ item ∈ g.items, ∀ f ∈ item.typedNames, f.type ≠ "") ∧
      ∃ ds, IsWritten crate (blankComments false text.toList) ds g ∧
        ((∃ item ∈ g.items, .text "" ∈ item.ownTypes) ↔ ∃ d ∈ ds, ∃ spare, d.Untyped spare) ∧
        ∀ d ∈ ds, ∀ spare, d.Untyped spare → 2 ≤ spare := by
  obtain ⟨ds, hds⟩ := read_eq_ok_iff.mp h
  obtain ⟨itemLists, hall, hitems⟩ := hds.items
  have htypes := hall.imp fun _ _ hd => typesOf_items? hd
  rw [hitems]
  refine ⟨?_, ds, hds, ⟨?_, ?_⟩, ?_⟩
  · intro item hitem f hf
    obtain ⟨items, hmem, hitem⟩ := List.mem_flatten.mp hitem
    obtain ⟨d, -, hd⟩ := exists_mem_of_forall₂ htypes.flip hmem
    exact hd.typedNames f (List.mem_flatMap.mpr ⟨item, hitem, hf⟩)
  · rintro ⟨item, hitem, hblank⟩
    obtain ⟨items, hmem, hitem⟩ := List.mem_flatten.mp hitem
    obtain ⟨d, hdmem, hd⟩ := exists_mem_of_forall₂ htypes.flip hmem
    exact ⟨d, hdmem, hd.ownTypes.mp (List.mem_flatMap.mpr ⟨item, hitem, hblank⟩)⟩
  · rintro ⟨d, hdmem, hu⟩
    obtain ⟨items, hmem, hd⟩ := exists_mem_of_forall₂ htypes hdmem
    obtain ⟨item, hitem, hblank⟩ := List.mem_flatMap.mp (hd.ownTypes.mpr hu)
    exact ⟨item, List.mem_flatten.mpr ⟨items, hmem, hitem⟩, hblank⟩
  · intro d hdmem spare hu
    obtain ⟨items, -, hd⟩ := exists_mem_of_forall₂ htypes hdmem
    exact hd.spare spare hu

/-- A namespace with a function and another name for a type, neither with a type. -/
def untypedText : String := "namespace geo \x7b [Async]  area(); \x7d; typedef   Url;"

/-- Whether a text is accepted and has a blank type. -/
def hasBlankType (outcome : Except UdlError Group) : Bool :=
  match outcome with
  | .ok g => g.items.any fun item => item.ownTypes.any (·.scalar? == some (.text ""))
  | .error _ => false

/-- A text with a blank type is read, one of its items has the empty text as a type, and what is
written there is a definition without a type behind two blanks. -/
theorem read_blank_types_untypedText : ∃ g, read untypedText (.text "geo") = .ok g ∧
    (∃ item ∈ g.items, .text "" ∈ item.ownTypes) ∧
    ∃ ds, IsWritten (.text "geo") (blankComments false untypedText.toList) ds g ∧
      ∃ d ∈ ds, ∃ spare, d.Untyped spare ∧ 2 ≤ spare := by
  have hblank : hasBlankType (read untypedText (.text "geo")) = true := by decide +kernel
  cases hread : read untypedText (.text "geo") with
  | error e =>
    rw [hread] at hblank
    cases hblank
  | ok g =>
    rw [hread] at hblank
    have hitem : ∃ item ∈ g.items, .text "" ∈ item.ownTypes := by
      obtain ⟨item, hitem, hany⟩ := List.any_eq_true.mp hblank
      obtain ⟨v, hv, hempty⟩ := List.any_eq_true.mp hany
      rw [beq_iff_eq, Value.scalar?_eq_some_iff] at hempty
      obtain rfl : v = .text "" := hempty
      exact ⟨item, hitem, hv⟩
    obtain ⟨-, ds, hds, hiff, hspare⟩ := read_blank_types hread
    obtain ⟨d, hd, spare, hu⟩ := hiff.mp hitem
    exact ⟨g, rfl, hitem, ds, hds, d, hd, spare, hu, hspare d hd spare hu⟩

end Udl
end BindGen

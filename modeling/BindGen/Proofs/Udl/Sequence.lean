import BindGen.Proofs.Udl.MemberReaders

/-!
# Texts as sequences of definitions

A text is accepted exactly if it is written definitions one behind the other, with blanks behind the
last one, of which each declares its items and exactly one is a namespace. What a definition
declares depends on its own text alone, so accepted texts can be put behind each other.
-/

namespace BindGen.Udl

open Text

variable {s tail : List Char} {crate : Value} {source : List Char}

/-! ## Written definitions -/

/-- The items of a definition with a body, if it declares any. -/
def BlockText.items? (crate : Value) (w : BlockText) : Option (List Item) :=
  (readBlock w.text crate (w.block 0)).toOption

/-- Only the word for enums names no reader of members. -/
theorem eq_enum_of_reader? {k : Keyword} {name : String} (h : k.reader? crate name = none) :
    k = .enum := by
  cases k with
  | enum => rfl
  | _ => cases h

private theorem readVariants_line {line : Nat} {body : List Char} {variants : List Variant}
    (h : readVariants line body = .ok variants) (line' : Nat) :
    readVariants line' body = .ok variants := by
  unfold readVariants at *
  rw [mapM_eq_ok_iff] at *
  refine h.imp fun part v hv => ?_
  cases hn : variantName? part with
  | none =>
    rw [hn] at hv
    cases hv
  | some name =>
    rw [hn] at hv
    exact hv

/-- What a definition declares does not depend on where it stands. -/
theorem BlockText.readBlock_eq_ok_iff (w : BlockText) (source : List Char) (n : Nat)
    {items : List Item} :
    readBlock source crate (w.block n) = .ok items ↔ w.items? crate = some items := by
  rw [items?, toOption_eq_some_iff]
  cases hr : w.keyword.reader? crate (String.ofList w.name) with
  | some r =>
    rw [Udl.readBlock_eq_ok_iff (b := w.block n) hr, Udl.readBlock_eq_ok_iff (b := w.block 0) hr]
    rfl
  | none =>
    have hk := eq_enum_of_reader? hr
    have henum (source : List Char) (n n' : Nat)
        (h : readBlock source crate (w.block n) = .ok items) (source' : List Char) :
        readBlock source' crate (w.block n') = .ok items := by
      simp only [readBlock, block, hk] at h ⊢
      obtain ⟨variants, hvariants, h⟩ := exists_of_bind_eq_ok h
      simp only [readVariants_line hvariants _, ok_bind]
      exact h
    exact ⟨fun h => henum source n 0 h w.text, fun h => henum w.text 0 n h source⟩

/-- A definition as it is written. -/
inductive Written where
  | block (w : BlockText)
  | typedef (w : AliasText)

namespace Written

/-- What is written, as a text. -/
def text : Written → List Char
  | block w => w.text
  | typedef w => w.text

/-- A block is written as its text. -/
@[simp]
theorem text_block (w : BlockText) : (block w).text = w.text := rfl

/-- A custom type is written as its text. -/
@[simp]
theorem text_typedef (w : AliasText) : (typedef w).text = w.text := rfl

/-- The items of a definition, if it declares any. -/
def items? (crate : Value) : Written → Option (List Item)
  | block w => w.items? crate
  | typedef w =>
    some [.customType
      { modulePath := crate, name := .text (String.ofList w.declared.name),
        builtin := .text (String.ofList w.declared.builtin) }]

/-- The name that a namespace declares. -/
def namespaceName? : Written → Option String
  | block w => if w.keyword = .namespaceDecl then some (String.ofList w.name) else none
  | typedef _ => none

/-- The same definition with more blanks in front. -/
def indent (blanks : List Char) (hblanks : allBlank blanks = true) : Written → Written
  | block w => block { w with lead := blanks ++ w.lead, isLead := w.isLead.append_blanks hblanks }
  | typedef w =>
    typedef { w with lead := blanks ++ w.lead, isLead := w.isLead.append_blanks hblanks }

variable {blanks : List Char} (hblanks : allBlank blanks = true)

private theorem text_indent (d : Written) : (d.indent blanks hblanks).text = blanks ++ d.text := by
  cases d with
  | block w =>
    simp [indent, text, BlockText.text, BlockText.toBody, BlockText.toName, BlockText.ending]
  | typedef w => simp [indent, text, AliasText.text]

private theorem namespaceName?_indent (d : Written) :
    (d.indent blanks hblanks).namespaceName? = d.namespaceName? := by
  cases d <;> rfl

private theorem items?_indent (d : Written) :
    (d.indent blanks hblanks).items? crate = d.items? crate := by
  cases d with
  | typedef w => rfl
  | block w =>
    let w' : BlockText :=
      { w with lead := blanks ++ w.lead, isLead := w.isLead.append_blanks hblanks }
    have hblock : w'.block 0 = w.block 0 := by
      simp only [w', BlockText.block, BlockText.text, BlockText.toBody, BlockText.toName,
        BlockText.ending, List.length_append, List.length_cons, List.length_nil, Block.mk.injEq,
        true_and]
      omega
    apply Option.ext
    intro items
    show w'.items? crate = some items ↔ w.items? crate = some items
    rw [← w'.readBlock_eq_ok_iff [] 0, hblock, w.readBlock_eq_ok_iff]

end Written

/-! ## Reading definitions -/

private theorem eq_of_toList_eq {α : Type} {a b : Option α} (h : a.toList = b.toList) : a = b := by
  cases a <;> cases b <;> simp_all

/-- What has been read of a text after further definitions. -/
structure Advances (crate : Value) (p : Progress) (ds : List Written) (p' : Progress) : Prop where
  declared : p'.declared.toList = p.declared.toList ++ ds.filterMap Written.namespaceName?
  items : ∃ itemLists, List.Forall₂ (fun d items => d.items? crate = some items) ds itemLists ∧
    p'.items = itemLists.reverse ++ p.items

namespace Advances

variable {p p' p'' : Progress} {ds : List Written}

/-- Without definitions there is no progress. -/
theorem nil (p : Progress) : Advances crate p [] p :=
  ⟨(List.append_nil _).symm, [], .nil, rfl⟩

/-- A definition makes progress by its items and by its namespace, and the others go on from
there. -/
theorem cons {d : Written} {items : List Item} {declared : Option String}
    (hitems : d.items? crate = some items)
    (hdeclared : declared.toList = p.declared.toList ++ d.namespaceName?.toList)
    (h : Advances crate ⟨declared, items :: p.items⟩ ds p') : Advances crate p (d :: ds) p' := by
  obtain ⟨itemLists, hall, hp'⟩ := h.items
  refine ⟨?_, items :: itemLists, .cons hitems hall, ?_⟩
  · have hnames : (d :: ds).filterMap Written.namespaceName? =
        d.namespaceName?.toList ++ ds.filterMap Written.namespaceName? := by
      cases hn : d.namespaceName? <;> simp [hn]
    rw [h.declared, hdeclared, hnames, List.append_assoc]
  · rw [hp', List.reverse_cons, List.append_assoc]
    rfl

private theorem exists_of_cons {d : Written} (h : Advances crate p (d :: ds) p') :
    ∃ items declared, d.items? crate = some items ∧
      declared.toList = p.declared.toList ++ d.namespaceName?.toList ∧
      Advances crate ⟨declared, items :: p.items⟩ ds p' := by
  obtain ⟨itemLists, hall, hp'⟩ := h.items
  cases hall with
  | @cons _ items _ itemLists hitems hall =>
    have hnames : p'.declared.toList = p.declared.toList ++ (d.namespaceName?.toList ++
        ds.filterMap Written.namespaceName?) := by
      rw [h.declared]
      cases hn : d.namespaceName? <;> simp [hn]
    -- there is at most one name, so the definition only has one if there was none
    have hone : ∃ declared : Option String,
        declared.toList = p.declared.toList ++ d.namespaceName?.toList := by
      cases hp : p.declared with
      | none => exact ⟨d.namespaceName?, rfl⟩
      | some earlier =>
        cases hn : d.namespaceName? with
        | none => exact ⟨some earlier, rfl⟩
        | some name =>
          have hlength := congrArg List.length hnames
          rw [hp, hn] at hlength
          cases hd : p'.declared <;> simp [hd] at hlength
    obtain ⟨declared, hdeclared⟩ := hone
    refine ⟨items, declared, hitems, hdeclared, ?_, itemLists, hall, ?_⟩
    · rw [hnames, hdeclared, List.append_assoc]
    · rw [hp', List.reverse_cons, List.append_assoc]
      rfl

end Advances

/-- The namespace after a definition with a body is the one before it, or its own if there was
none. -/
theorem declare_eq_ok_iff {w : BlockText} {n : Nat} {before after : Option String} :
    declare source (w.block n) before = .ok after ↔
      after.toList = before.toList ++ (Written.block w).namespaceName?.toList := by
  by_cases hk : w.keyword = .namespaceDecl
  · have hname : (Written.block w).namespaceName? = some (String.ofList w.name) := if_pos hk
    rw [hname]
    cases before with
    | none =>
      have hfirst : declare source (w.block n) none = .ok (some (String.ofList w.name)) := by
        simp only [declare, BlockText.block, hk]
      rw [hfirst, Except.ok.injEq]
      exact ⟨fun h => congrArg Option.toList h.symm, fun h => (eq_of_toList_eq h).symm⟩
    | some earlier =>
      constructor
      · intro h
        simp only [declare, BlockText.block, hk] at h
        cases h
      · intro h
        have hlength := congrArg List.length h
        cases after <;> cases hlength
  · have hname : (Written.block w).namespaceName? = none := if_neg hk
    have hkeep : declare source (w.block n) before = .ok before := by
      unfold declare
      cases hkeyword : w.keyword with
      | namespaceDecl => exact absurd hkeyword hk
      | _ => simp only [BlockText.block, hkeyword]
    rw [hname, hkeep, Except.ok.injEq, Option.toList_none, List.append_nil]
    exact ⟨fun h => congrArg Option.toList h.symm, fun h => (eq_of_toList_eq h).symm⟩

section ReadFrom

variable {p p' : Progress} {ds : List Written}

/-- A definition has characters that are not blank. -/
theorem allBlank_text_append (d : Written) (s : List Char) : allBlank (d.text ++ s) = false := by
  cases d with
  | block w =>
    rw [Written.text_block, w.text_append, allBlank_append,
      (w.isKeyword.startsTight.append _).allBlank_eq_false, Bool.and_false]
  | typedef w =>
    have hword (t : List Char) : allBlank ("typedef".toList ++ t) = false := rfl
    rw [Written.text_typedef, w.text_append, allBlank_append, hword, Bool.and_false]

private theorem readFrom_text {d : Written} {items : List Item} {declared : Option String}
    (hitems : d.items? crate = some items)
    (hdeclared : declared.toList = p.declared.toList ++ d.namespaceName?.toList) (s : List Char) :
    readFrom source crate p (d.text ++ s) =
      readFrom source crate ⟨declared, items :: p.items⟩ s := by
  cases d with
  | block w =>
    apply (readFrom_of_block? (allBlank_text_append (.block w) s) (w.block?_text s)).trans
    rw [declare_eq_ok_iff.mpr hdeclared, ok_bind, (w.readBlock_eq_ok_iff source _).mpr hitems,
      ok_bind]
  | typedef w =>
    obtain rfl := Option.some.inj hitems
    have hsame : declared = p.declared :=
      eq_of_toList_eq (by simpa [Written.namespaceName?] using hdeclared)
    rw [hsame]
    exact readFrom_of_alias? (allBlank_text_append (.typedef w) s) (w.block?_text s)
      (w.alias?_text s)

/-- Reading goes on behind definitions that are accepted. -/
theorem readFrom_of_advances (h : Advances crate p ds p') (s : List Char) :
    readFrom source crate p (ds.flatMap Written.text ++ s) = readFrom source crate p' s := by
  induction ds generalizing p with
  | nil =>
    obtain ⟨itemLists, hall, hitems⟩ := h.items
    cases hall
    have hdeclared := h.declared
    rw [List.filterMap_nil, List.append_nil] at hdeclared
    have hsame : p' = p := by
      cases p
      cases p'
      exact congrArg₂ Progress.mk (eq_of_toList_eq hdeclared) hitems
    rw [hsame]
    rfl
  | cons d ds ih =>
    obtain ⟨items, declared, hitems, hdeclared, hrest⟩ := h.exists_of_cons
    rw [List.flatMap_cons, List.append_assoc, readFrom_text hitems hdeclared, ih hrest]

/-- What is read with success is definitions with blanks behind them. -/
theorem exists_advances_of_ok (h : readFrom source crate p s = .ok p') :
    ∃ ds tail, s = ds.flatMap Written.text ++ tail ∧ allBlank tail = true ∧
      Advances crate p ds p' := by
  fun_induction readFrom source crate p s with
  | case1 p s hblank =>
    obtain rfl := Except.ok.inj h
    exact ⟨[], s, rfl, hblank, .nil p⟩
  | case2 p s hblank b rest hb ih =>
    obtain ⟨declared, hdeclared, h⟩ := exists_of_bind_eq_ok h
    obtain ⟨items, hitems, h⟩ := exists_of_bind_eq_ok h
    obtain ⟨ds, tail, rfl, htail, hds⟩ := ih declared items h
    obtain ⟨w, rfl, rfl⟩ := BlockText.exists_of_block? hb
    refine ⟨.block w :: ds, tail, (List.append_assoc ..).symm, htail, ?_⟩
    exact hds.cons ((w.readBlock_eq_ok_iff source _).mp hitems) (declare_eq_ok_iff.mp hdeclared)
  | case3 p s hblank hblock a rest ha item ih =>
    obtain ⟨ds, tail, rfl, htail, hds⟩ := ih h
    obtain ⟨w, rfl, rfl⟩ := AliasText.exists_of_alias? ha
    exact ⟨.typedef w :: ds, tail, (List.append_assoc ..).symm, htail,
      hds.cons rfl (List.append_nil _).symm⟩
  | case4 => cases h

end ReadFrom

/-! ## Accepted texts -/

/-- A source is the definitions of a group, with blanks behind them. -/
structure IsWritten (crate : Value) (source : List Char) (ds : List Written) (g : Group) :
    Prop where
  text : ∃ tail, source = ds.flatMap Written.text ++ tail ∧ allBlank tail = true
  declared : ∃ name, ds.filterMap Written.namespaceName? = [name] ∧
    g.declared = ⟨crate, .text name⟩
  items : ∃ itemLists, List.Forall₂ (fun d items => d.items? crate = some items) ds itemLists ∧
    g.items = itemLists.flatten

/-- A text is accepted exactly if it is written definitions that declare their items, one of them
the namespace. -/
theorem read_eq_ok_iff {text : String} {g : Group} :
    read text crate = .ok g ↔ ∃ ds, IsWritten crate (blankComments false text.toList) ds g := by
  unfold read
  dsimp only
  constructor
  · intro h
    obtain ⟨p, hp, h⟩ := exists_of_bind_eq_ok h
    obtain ⟨ds, tail, htext, htail, hds⟩ := exists_advances_of_ok hp
    obtain ⟨itemLists, hall, hitems⟩ := hds.items
    cases hd : p.declared with
    | none =>
      rw [hd] at h
      cases h
    | some name =>
      rw [hd] at h
      obtain rfl := Except.ok.inj h
      refine ⟨ds, ⟨tail, htext, htail⟩, ⟨name, ?_, rfl⟩, itemLists, hall, ?_⟩
      · have hnames := hds.declared
        rw [hd] at hnames
        exact hnames.symm
      · rw [hitems, List.append_nil, List.reverse_reverse]
  · rintro ⟨ds, ⟨tail, htext, htail⟩, ⟨name, hname, hdeclared⟩, itemLists, hall, hitems⟩
    have hds : Advances crate ⟨none, []⟩ ds ⟨some name, itemLists.reverse⟩ :=
      ⟨hname.symm, itemLists, hall, (List.append_nil _).symm⟩
    rw [htext, readFrom_of_advances hds, readFrom_of_allBlank htail, ok_bind]
    obtain ⟨declared, items⟩ := g
    cases hdeclared
    cases hitems
    rw [List.reverse_reverse]
    rfl

/-! ## Texts behind each other -/

/-- A comment ends with its line. -/
theorem blankComments_append_newline (inComment : Bool) (a b : List Char) :
    blankComments inComment (a ++ '\n' :: b) =
      blankComments inComment a ++ '\n' :: blankComments false b := by
  have hhead (rest : List Char) :
      ((rest ++ '\n' :: b).head? == some '/') = (rest.head? == some '/') := by
    cases rest <;> rfl
  fun_induction blankComments inComment a with
  | case1 => rfl
  | case2 inComment rest ih => simp [blankComments, ih]
  | case3 inComment c rest hc starts hblank ih =>
    rw [List.cons_append, blankComments.eq_3 _ _ _ hc]
    simp only [hhead, ih]
    exact if_pos hblank
  | case4 inComment c rest hc starts hblank ih =>
    rw [List.cons_append, blankComments.eq_3 _ _ _ hc]
    simp only [hhead, ih]
    exact if_neg hblank

/-- Definitions that are no namespace can follow an accepted text. -/
theorem IsWritten.append {ds ds' : List Written} {g : Group} {s' : List Char}
    {itemLists : List (List Item)} (h : IsWritten crate source ds g)
    (hs' : s' = ds'.flatMap Written.text ++ tail) (htail : allBlank tail = true)
    (hnames : ds'.filterMap Written.namespaceName? = [])
    (hitems : List.Forall₂ (fun d items => d.items? crate = some items) ds' itemLists) :
    ∃ ds, IsWritten crate (source ++ s') ds ⟨g.declared, g.items ++ itemLists.flatten⟩ := by
  obtain ⟨tail', hsource, htail'⟩ := h.text
  obtain ⟨name, hname, hdeclared⟩ := h.declared
  obtain ⟨itemLists', hall, hg⟩ := h.items
  cases ds' with
  | nil =>
    cases hitems
    refine ⟨ds, ⟨tail' ++ tail, ?_, ?_⟩, ⟨name, hname, hdeclared⟩, itemLists', hall, ?_⟩
    · rw [hsource, hs', List.append_assoc]
      rfl
    · rw [allBlank_append, htail', htail]
      rfl
    · rw [hg]
      exact List.append_nil _
  | cons d ds' =>
    cases hitems with
    | @cons _ items _ itemLists hd hds' =>
      refine ⟨ds ++ d.indent tail' htail' :: ds', ⟨tail, ?_, htail⟩, ⟨name, ?_, hdeclared⟩,
        itemLists' ++ items :: itemLists, ?_, ?_⟩
      · rw [hsource, hs']
        simp [d.text_indent htail']
      · rw [List.filterMap_append, hname, List.filterMap_cons, d.namespaceName?_indent htail',
          ← List.filterMap_cons, hnames]
        rfl
      · exact List.rel_append hall (.cons ((d.items?_indent htail').trans hd) hds')
      · rw [hg, List.flatten_append]

/-- A namespace without functions. -/
def emptyNamespace : BlockText where
  brackets := none
  lead := []
  keyword := .namespaceDecl
  word := "namespace".toList
  gap := [' ']
  name := ['z']
  opening := [' ']
  body := []
  closing := []
  isLead := .bare rfl
  isKeyword := .namespaceDecl
  blank_gap := rfl
  gap_ne_nil := List.cons_ne_nil _ _
  isName := by decide
  blank_opening := rfl
  unbraced := List.forall_mem_nil _
  blank_closing := rfl

/-- What follows a namespace without functions in an accepted text is definitions that are no
namespace. -/
theorem IsWritten.of_emptyNamespace {ds : List Written} {g : Group}
    (h : IsWritten crate (emptyNamespace.text ++ s) ds g) :
    ∃ ds' tail itemLists, s = ds'.flatMap Written.text ++ tail ∧ allBlank tail = true ∧
      ds'.filterMap Written.namespaceName? = [] ∧
      List.Forall₂ (fun d items => d.items? crate = some items) ds' itemLists ∧
      g.items = itemLists.flatten := by
  obtain ⟨tail, hsource, htail⟩ := h.text
  obtain ⟨name, hname, -⟩ := h.declared
  obtain ⟨itemLists, hall, hg⟩ := h.items
  cases hall with
  | nil => cases hname
  | @cons d items ds' itemLists hd hds' =>
    have htaken := emptyNamespace.block?_text s
    rw [hsource, List.flatMap_cons, List.append_assoc] at htaken
    cases d with
    | typedef w =>
      rw [Written.text_typedef, w.block?_text] at htaken
      cases htaken
    | block w =>
      rw [Written.text_block, w.block?_text] at htaken
      obtain ⟨hblock, hs⟩ := Prod.mk.inj (Option.some.inj htaken)
      have hkeyword : w.keyword = .namespaceDecl := congrArg Block.keyword hblock
      have hnames : ds'.filterMap Written.namespaceName? = [] := by
        have hown : (Written.block w).namespaceName? = some (String.ofList w.name) :=
          if_pos hkeyword
        rw [List.filterMap_cons_some hown] at hname
        exact (List.cons.inj hname).2
      have hitems : items = [] := by
        have hread := (w.readBlock_eq_ok_iff [] (ds'.flatMap Written.text ++ tail).length).mpr hd
        rw [hblock] at hread
        exact (Except.ok.inj hread).symm
      refine ⟨ds', tail, itemLists, hs.symm, htail, hnames, hds', ?_⟩
      rw [hg, hitems]
      rfl

/-- Accepted texts can be put behind each other: what follows a namespace in an accepted text can
follow any accepted text, and the items are those of both. -/
theorem read_append {t₁ t₂ : String} {g₁ g₂ : Group} (h₁ : read t₁ crate = .ok g₁)
    (h₂ : read ("namespace z \x7b\x7d;\n" ++ t₂) crate = .ok g₂) :
    read (t₁ ++ "\n" ++ t₂) crate = .ok ⟨g₁.declared, g₁.items ++ g₂.items⟩ := by
  obtain ⟨ds₁, hds₁⟩ := read_eq_ok_iff.mp h₁
  obtain ⟨ds₂, hds₂⟩ := read_eq_ok_iff.mp h₂
  have hsource : blankComments false ("namespace z \x7b\x7d;\n" ++ t₂).toList =
      emptyNamespace.text ++ '\n' :: blankComments false t₂.toList := by
    have hclean : blankComments false emptyNamespace.text = emptyNamespace.text := rfl
    rw [← hclean, ← blankComments_append_newline, String.toList_append]
    rfl
  rw [hsource] at hds₂
  obtain ⟨ds', tail, itemLists, hs, htail, hnames, hitems, hg₂⟩ := hds₂.of_emptyNamespace
  have hjoined : blankComments false (t₁ ++ "\n" ++ t₂).toList =
      blankComments false t₁.toList ++ '\n' :: blankComments false t₂.toList := by
    rw [← blankComments_append_newline, String.toList_append, String.toList_append,
      List.append_assoc]
    rfl
  apply read_eq_ok_iff.mpr
  rw [hjoined, hg₂]
  exact hds₁.append hs htail hnames hitems

/-- A namespace, with a comment up to the end of the text. -/
def areaText : String := "namespace geo \x7b f64 area(f64 side); \x7d; // of a square"

/-- A definition that is no namespace, with more than one blank in front. -/
def linkText : String := "  typedef string Url;"

/-- Two texts are read, and behind one another they are read as the namespace of the first with the
items of both. -/
theorem read_append_areaText : ∃ g₁ g₂, read areaText (.text "geo") = .ok g₁ ∧
    read ("namespace z \x7b\x7d;\n" ++ linkText) (.text "geo") = .ok g₂ ∧
    read (areaText ++ "\n" ++ linkText) (.text "geo") =
      .ok ⟨g₁.declared, g₁.items ++ g₂.items⟩ := by
  have hfirst : (read areaText (.text "geo")).isOk = true := by decide +kernel
  have hsecond : (read ("namespace z \x7b\x7d;\n" ++ linkText) (.text "geo")).isOk = true := by
    decide +kernel
  obtain ⟨g₁, h₁⟩ := exists_of_isOk hfirst
  obtain ⟨g₂, h₂⟩ := exists_of_isOk hsecond
  exact ⟨g₁, g₂, h₁, h₂, read_append h₁ h₂⟩

end BindGen.Udl

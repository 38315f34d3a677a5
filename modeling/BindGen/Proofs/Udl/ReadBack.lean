import BindGen.Proofs.Udl.Bodies

/-!
# Reading documents back

Every document is read as what it declares. A definition is read from the blanks in front of it to
the semicolon behind it, whatever has been read before and whatever follows, so a whole document is
read definition by definition.
-/

namespace BindGen.Udl

open Text

variable {s lead rest : List Char} {crate : Value} {source : List Char}

/-- A text without slashes has no comments. -/
theorem blankComments_of_forall (h : ∀ c ∈ s, c ≠ '/') : blankComments false s = s := by
  induction s with
  | nil => rfl
  | cons c rest ih =>
    have hrest := ih fun d hd => h d (List.mem_cons_of_mem c hd)
    have hc : c ≠ '/' := h c List.mem_cons_self
    by_cases hn : c = '\n'
    · rw [hn, blankComments, hrest]
    · rw [blankComments, hrest]
      · simp [hc]
      · exact hn

/-! ## Reading on -/

section ReadFrom

variable {progress : Progress}

/-- Blanks are read without progress. -/
theorem readFrom_of_allBlank (h : allBlank s = true) :
    readFrom source crate progress s = .ok progress := by
  rw [readFrom, if_pos h]

/-- A block is read, then what is behind it. -/
theorem readFrom_of_block? {b : Block} (hs : allBlank s = false) (hb : block? s = some (b, rest)) :
    readFrom source crate progress s = (do
      let declared ← declare source b progress.declared
      let items ← readBlock source crate b
      readFrom source crate ⟨declared, items :: progress.items⟩ rest) := by
  rw [readFrom, hs]
  simp only [Bool.false_eq_true, if_false]
  split
  · next b' rest' hb' =>
    rw [hb] at hb'
    obtain ⟨rfl, rfl⟩ := Prod.mk.inj (Option.some.inj hb')
    rfl
  · next hb' =>
    rw [hb] at hb'
    cases hb'

/-- A custom type is read, then what is behind it. -/
theorem readFrom_of_alias? {a : Alias} (hs : allBlank s = false) (hb : block? s = none)
    (ha : alias? s = some (a, rest)) :
    readFrom source crate progress s =
      readFrom source crate ⟨progress.declared, [.customType
        { modulePath := crate, name := .text (String.ofList a.name),
          builtin := .text (String.ofList a.builtin) }] :: progress.items⟩ rest := by
  rw [readFrom, hs]
  simp only [Bool.false_eq_true, if_false]
  split
  · next hb' =>
    rw [hb] at hb'
    cases hb'
  · split
    · next a' rest' ha' =>
      rw [ha] at ha'
      obtain ⟨rfl, rfl⟩ := Prod.mk.inj (Option.some.inj ha')
      rfl
    · next ha' =>
      rw [ha] at ha'
      cases ha'

/-- What is neither blank nor a definition is an error at its line. -/
theorem readFrom_of_none (hs : allBlank s = false) (hb : block? s = none) (ha : alias? s = none) :
    readFrom source crate progress s =
      .error (.expectedDefinition (lineAt source (source.length - (trimLeft s).length))) := by
  rw [readFrom, hs]
  simp only [Bool.false_eq_true, if_false]
  split
  · next hb' =>
    rw [hb] at hb'
    cases hb'
  · split
    · next ha' =>
      rw [ha] at ha'
      cases ha'
    · rfl

/-- Blanks in front of a block do not matter. -/
theorem block?_append_blanks (hlead : allBlank lead = true) (s : List Char) :
    block? (lead ++ s) = block? s := by
  simp only [block?, trimLeft_append_blanks hlead]

/-- Blanks in front of a custom type do not matter. -/
theorem alias?_append_blanks (hlead : allBlank lead = true) (s : List Char) :
    alias? (lead ++ s) = alias? s := by
  simp only [alias?, trimLeft_append_blanks hlead]

/-- Blanks in front of a place in the source do not matter. -/
theorem readFrom_append_blanks (hlead : allBlank lead = true) (s : List Char) :
    readFrom source crate progress (lead ++ s) = readFrom source crate progress s := by
  have hblock := block?_append_blanks hlead s
  have halias := alias?_append_blanks hlead s
  have hall : allBlank (lead ++ s) = allBlank s := by rw [allBlank_append, hlead, Bool.true_and]
  cases hs : allBlank s with
  | true => rw [readFrom_of_allBlank hs, readFrom_of_allBlank (hall.trans hs)]
  | false =>
    have hs' := hall.trans hs
    cases hb : block? s with
    | some found =>
      rw [readFrom_of_block? hs hb, readFrom_of_block? hs' (hblock.trans hb)]
    | none =>
      have hb' := hblock.trans hb
      cases ha : alias? s with
      | some found =>
        rw [readFrom_of_alias? hs hb ha, readFrom_of_alias? hs' hb' (halias.trans ha)]
      | none =>
        rw [readFrom_of_none hs hb ha, readFrom_of_none hs' hb' (halias.trans ha),
          trimLeft_append_blanks hlead]

end ReadFrom

namespace Grammar

/-! ## Definitions with a body -/

/-- A keyword as it is written in front of a name. -/
structure IsKeyword (word : String) (k : Keyword) : Prop where
  starts : StartsTight word.toList
  head : word.toList.head? ≠ some '['
  slash : '/' ∉ word.toList
  take : ∀ s, takeKeyword (word.toList ++ ' ' :: s) = some (k, trimLeft s)

private theorem isKeyword_namespace : IsKeyword "namespace" .namespaceDecl :=
  ⟨.cons rfl _, by decide, by decide, fun _ => rfl⟩

private theorem isKeyword_dictionary : IsKeyword "dictionary" .dictionary :=
  ⟨.cons rfl _, by decide, by decide, fun _ => rfl⟩

private theorem isKeyword_enum :
    IsKeyword "enum" .enum := ⟨.cons rfl _, by decide, by decide, fun _ => rfl⟩

private theorem isKeyword_interface : IsKeyword "interface" .interface :=
  ⟨.cons rfl _, by decide, by decide, fun _ => rfl⟩

private theorem isKeyword_callbackInterface : IsKeyword "callback interface" .callbackInterface :=
  ⟨.cons rfl _, by decide, by decide, fun _ => rfl⟩

private theorem takeChar_cons (d : Char) (s : List Char) :
    takeChar d (d :: s) = some s := if_pos rfl

/-- A word in front of a blank is taken as a name. -/
theorem takeName_append (w : Word) (s : List Char) :
    takeName (w.chars ++ ' ' :: s) = some (w.chars, ' ' :: s) := by
  have hw : ∀ c ∈ w.chars, Text.isWord c = true := fun _ => w.isWord_of_mem
  have hblank : Text.isWord ' ' = false := by decide
  simp [takeName, takeWord, List.takeWhile_append_of_pos hw, List.dropWhile_append_of_pos hw,
    hblank, w.ne_nil]

/-- A definition with a body is read up to its semicolon. -/
theorem block?_blockText {word : String} {k : Keyword} (hk : IsKeyword word k)
    (as : List Attribute) (name : Word) {body : List Char} (hbody : IsBody body)
    (rest : List Char) :
    ∃ fromName fromBody, block? (blockText as word name body ++ rest) =
      some (⟨as.map Attribute.entry, k, name.chars, fromName, body, fromBody⟩, rest) := by
  have hnone : ∀ c ∈ body, (!isBrace c) = true := fun c hc => by
    simp [hbody.isBrace c hc]
  set behind := '\x7b' :: (body ++ '\x7d' :: ';' :: rest) with hbehind
  set decl := word.toList ++ ' ' :: (name.chars ++ ' ' :: behind) with hdecl
  have hstarts : StartsTight decl := hk.starts.append _
  have hhead : decl.head? ≠ some '[' := by
    obtain ⟨c, tail, hc, -⟩ := hk.starts
    have := hk.head
    rw [hdecl]
    rw [hc] at this ⊢
    exact this
  obtain ⟨brackets, after, hb, ha, hr⟩ := Attribute.takeBrackets_listText as hstarts hhead
  have hlisted : StartsTight (Attribute.listText as ++ decl) := by
    cases as with
    | nil => exact hstarts
    | cons a as => exact .cons rfl _
  have htext : blockText as word name body ++ rest = Attribute.listText as ++ decl := by
    simp [blockText, hdecl, hbehind]
  have hkeyword : takeKeyword decl = some (k, name.chars ++ ' ' :: behind) := by
    rw [hdecl, hk.take, trimLeft_of_startsTight (name.tight.starts.append _)]
  have hopen : trimLeft (' ' :: behind) = behind := trimLeft_append (b := [' ']) rfl (.cons rfl _)
  have hbrace : takeChar '\x7b' behind = some (body ++ '\x7d' :: ';' :: rest) := takeChar_cons _ _
  have htake : (body ++ '\x7d' :: ';' :: rest).takeWhile (!isBrace ·) = body := by
    rw [List.takeWhile_append_of_pos hnone]
    simp [isBrace]
  have hdrop : (body ++ '\x7d' :: ';' :: rest).dropWhile (!isBrace ·) = '\x7d' :: ';' :: rest := by
    rw [List.dropWhile_append_of_pos hnone]
    simp [isBrace]
  have hsemi : trimLeft (';' :: rest) = ';' :: rest := trimLeft_eq_self rfl
  refine ⟨(name.chars ++ ' ' :: behind).length, (body ++ '\x7d' :: ';' :: rest).length, ?_⟩
  simp only [block?, htext, trimLeft_of_startsTight hlisted, hb, hr, ha, hkeyword, takeName_append,
    hopen, hbrace, htake, hdrop, takeChar_cons, hsemi, Option.bind_eq_bind, Option.bind_some]
  rfl

/-! ## The bodies of definitions -/

section Bodies

variable (crate : Value) (name : Word) (fromName fromBody : Nat)

private theorem readBlock_namespace (functions : List Function) :
    readBlock source crate ⟨[], .namespaceDecl, name.chars, fromName,
      membersText (functions.map Function.text), fromBody⟩ =
      .ok (functions.map fun f => .function (f.declared crate)) := by
  have hone (f : Function) (line : Nat) :
      (do return Item.function (← readFunction crate line f.text)) =
        Except.ok (Item.function (f.declared crate)) := by
    rw [f.readFunction_text]
    rfl
  obtain ⟨found, hfound, hread⟩ := readMembers_membersText source
    (fun line member => do return Item.function (← readFunction crate line member))
    Function.isPart hone (source.length - fromBody) functions
  simp only [readBlock, hfound, ok_bind]
  exact hread

private theorem readBlock_dictionary (fields : List Field) :
    readBlock source crate ⟨[], .dictionary, name.chars, fromName,
      membersText (fields.map Field.text), fromBody⟩ =
      .ok ((Definition.dictionary name fields).items crate) := by
  obtain ⟨found, hfound, hread⟩ := readMembers_membersText source readField Field.isPart
    (fun f line => readField_text line f) (source.length - fromBody) fields
  simp only [readBlock, hfound, ok_bind]
  rw [hread]
  rfl

private theorem readBlock_enum (isError : Bool) (variants : List Word) :
    readBlock source crate
      ⟨(if isError then [Attribute.flag .error] else []).map Attribute.entry, .enum, name.chars,
        fromName, variantsText variants, fromBody⟩ =
      .ok ((Definition.enum isError name variants).items crate) := by
  simp only [readBlock, readVariants_variantsText, ok_bind]
  cases isError <;> rfl

private theorem readBlock_interface (ms : List Member) :
    readBlock source crate ⟨[], .interface, name.chars, fromName,
      membersText (ms.map Member.text), fromBody⟩ =
      .ok ((Definition.interface name ms).items crate) := by
  obtain ⟨found, hfound, hread⟩ := readMembers_membersText source
    (readObjectMember crate name.string) Member.isPart
    (fun m line => m.readObjectMember_text crate name line) (source.length - fromBody) ms
  simp only [readBlock, hfound, ok_bind]
  rw [Word.string] at hread
  rw [hread]
  rfl

private theorem readBlock_callbackInterface (methods : List Function) :
    readBlock source crate ⟨[], .callbackInterface, name.chars, fromName,
      membersText (methods.map Function.text), fromBody⟩ =
      .ok ((Definition.callbackInterface name methods).items crate) := by
  obtain ⟨found, hfound, hread⟩ := readMembers_membersText source (readFunction crate)
    Function.isPart (fun f line => f.readFunction_text crate line) (source.length - fromBody) methods
  simp only [readBlock, hfound, ok_bind]
  rw [hread]
  rfl

end Bodies

/-! ## One definition -/

private theorem startsTight_blockText {word : String} {k : Keyword} (hk : IsKeyword word k)
    (as : List Attribute) (name : Word) (body : List Char) :
    StartsTight (blockText as word name body) := by
  cases as with
  | nil => exact hk.starts.append _
  | cons a as => exact .cons rfl _

/-- Reading on from a definition with a body. -/
theorem readFrom_blockText {word : String} {k : Keyword} (hk : IsKeyword word k)
    {as : List Attribute} {name : Word} {body : List Char} (hbody : IsBody body)
    {items : List Item} {progress : Progress} {declared : Option String}
    (hdeclare : ∀ fromName fromBody, declare source
      ⟨as.map Attribute.entry, k, name.chars, fromName, body, fromBody⟩ progress.declared =
        .ok declared)
    (hread : ∀ fromName fromBody, readBlock source crate
      ⟨as.map Attribute.entry, k, name.chars, fromName, body, fromBody⟩ = .ok items)
    (rest : List Char) :
    readFrom source crate progress (blockText as word name body ++ rest) =
      readFrom source crate ⟨declared, items :: progress.items⟩ rest := by
  obtain ⟨fromName, fromBody, hblock⟩ := block?_blockText hk as name hbody rest
  have hstarts := (startsTight_blockText hk as name body).append rest
  rw [readFrom_of_block? hstarts.allBlank_eq_false hblock, hdeclare, ok_bind, hread,
    ok_bind]

private theorem startsTight_typedef (s : List Char) : StartsTight (Word.typedef.chars ++ s) :=
  .cons rfl _

private theorem takeBrackets_typedef (s : List Char) :
    takeBrackets (Word.typedef.chars ++ s) = some (none, Word.typedef.chars ++ s) := rfl

private theorem takeKeyword_typedef (s : List Char) :
    takeKeyword (Word.typedef.chars ++ s) = none := rfl

private theorem afterPrefix?_typedef (s : List Char) :
    afterPrefix? "typedef".toList (Word.typedef.chars ++ s) = some s :=
  afterPrefix?_append Word.typedef.chars s

/-- No definition with a body starts like another name for a type. -/
theorem block?_typedef (s : List Char) : block? (Word.typedef.chars ++ s) = none := by
  rw [block?, trimLeft_of_startsTight (startsTight_typedef s), takeBrackets_typedef]
  simp only [Option.bind_eq_bind, Option.bind_some]
  rw [trimLeft_of_startsTight (startsTight_typedef s), takeKeyword_typedef]
  rfl

/-- Another name for a type is read up to its semicolon. -/
theorem alias?_typedef (type : TypeTree) (name : Word) (rest : List Char) :
    alias? (Word.typedef.chars ++ ' ' :: ((type.text ++ ' ' :: name.chars) ++ ';' :: rest)) =
      some (⟨type.text, name.chars⟩, rest) := by
  have hchars : ∀ c ∈ type.text ++ ' ' :: name.chars, isTypeChar c = true := by
    simp only [List.forall_mem_append, List.forall_mem_cons]
    exact ⟨type.isTypeChar_of_mem, rfl, fun c hc => isTypeChar_of_isWord (name.isWord_of_mem hc)⟩
  have htight : Tight (type.text ++ ' ' :: name.chars) :=
    ⟨type.tight.starts.append _, .append _ (.cons _ name.tight.ends)⟩
  have hblank : skipBlanks1 (' ' :: ((type.text ++ ' ' :: name.chars) ++ ';' :: rest)) =
      some ((type.text ++ ' ' :: name.chars) ++ ';' :: rest) :=
    congrArg some (trimLeft_of_startsTight (htight.starts.append _))
  have hsemi : isTypeChar ';' = false := by decide
  have htake : ((type.text ++ ' ' :: name.chars) ++ ';' :: rest).takeWhile isTypeChar =
      type.text ++ ' ' :: name.chars := by
    rw [List.takeWhile_append_of_pos hchars]
    simp [hsemi]
  have hdrop : ((type.text ++ ' ' :: name.chars) ++ ';' :: rest).dropWhile isTypeChar =
      ';' :: rest := by
    rw [List.dropWhile_append_of_pos hchars]
    simp [hsemi]
  rw [alias?, trimLeft_of_startsTight (startsTight_typedef _), takeBrackets_typedef]
  simp only [Option.bind_eq_bind, Option.bind_some]
  rw [trimLeft_of_startsTight (startsTight_typedef _), afterPrefix?_typedef]
  simp only [Option.bind_some, hblank, htake, hdrop, trimRight_of_endsTight htight.ends,
    split?_text, takeChar_cons]
  rfl

/-- Reading on from a definition that is not the namespace. -/
theorem Definition.readFrom_text (d : Definition) (progress : Progress) (rest : List Char) :
    readFrom source crate progress (d.text ++ rest) =
      readFrom source crate ⟨progress.declared, d.items crate :: progress.items⟩ rest := by
  cases d with
  | dictionary name fields =>
    exact readFrom_blockText isKeyword_dictionary (isBody_membersText Field.isPart fields)
      (fun _ _ => rfl) (fun n m => readBlock_dictionary crate name n m fields) rest
  | enum isError name variants =>
    exact readFrom_blockText isKeyword_enum (isBody_variantsText variants)
      (fun _ _ => rfl) (fun n m => readBlock_enum crate name n m isError variants) rest
  | interface name ms =>
    exact readFrom_blockText isKeyword_interface (isBody_membersText Member.isPart ms)
      (fun _ _ => rfl) (fun n m => readBlock_interface crate name n m ms) rest
  | callbackInterface name methods =>
    exact readFrom_blockText isKeyword_callbackInterface
      (isBody_membersText Function.isPart methods)
      (fun _ _ => rfl) (fun n m => readBlock_callbackInterface crate name n m methods) rest
  | typedef type name =>
    have htext : (typedef type name).text ++ rest =
        Word.typedef.chars ++ ' ' :: ((type.text ++ ' ' :: name.chars) ++ ';' :: rest) := by
      simp [text, typedefText]
    rw [htext, readFrom_of_alias? (startsTight_typedef _).allBlank_eq_false
      (block?_typedef _) (alias?_typedef type name rest)]
    rfl

/-- Reading on from the namespace, if there has been none. -/
theorem Document.readFrom_namespaceText (d : Document) (items : List (List Item))
    (rest : List Char) :
    readFrom source crate ⟨none, items⟩ (d.namespaceText ++ rest) =
      readFrom source crate ⟨some d.name.string,
        (d.functions.map fun f => .function (f.declared crate)) :: items⟩ rest :=
  readFrom_blockText isKeyword_namespace (isBody_membersText Function.isPart d.functions)
    (fun _ _ => rfl) (fun n m => readBlock_namespace crate d.name n m d.functions) rest

/-! ## Documents -/

/-- Definitions one after the other, each behind the same blanks, are read in their order. -/
theorem readFrom_definitions (between : Blanks) (ds : List Definition) (progress : Progress)
    (rest : List Char) :
    readFrom source crate progress ((ds.map Definition.text).flatMap (between.1 ++ ·) ++ rest) =
      readFrom source crate
        ⟨progress.declared, (ds.map (Definition.items crate)).reverse ++ progress.items⟩ rest := by
  induction ds generalizing progress with
  | nil => rfl
  | cons d ds ih =>
    rw [List.map_cons, List.flatMap_cons, List.append_assoc, List.append_assoc,
      readFrom_append_blanks between.2, d.readFrom_text, ih]
    simp

private theorem append_intercalate {ts : List (List Char)} (h : ts ≠ []) (sep : List Char) :
    sep ++ sep.intercalate ts = ts.flatMap (sep ++ ·) := by
  induction ts with
  | nil => exact absurd rfl h
  | cons t ts ih =>
    cases ts with
    | nil => simp
    | cons u us =>
      rw [List.intercalate_cons_cons, List.flatMap_cons, ← ih (List.cons_ne_nil u us)]
      simp

private theorem ne_slash_blockText {word : String} {k : Keyword} (hk : IsKeyword word k)
    (as : List Attribute) (name : Word) {body : List Char} (hbody : IsBody body) :
    ∀ c ∈ blockText as word name body, c ≠ '/' := by
  have hpart : ∀ c, isPartChar c = true → c ≠ '/' := ne_of_isPartChar (by decide)
  have hchars : ∀ c ∈ body, c ≠ '/' := by
    intro c hc
    rcases hbody c hc with h | rfl
    · exact hpart c h
    · decide
  simp only [blockText, List.forall_mem_append, List.forall_mem_cons]
  exact ⟨fun c hc => hpart c (isPartChar_listText as c hc),
    fun c hc => ne_of_mem_of_not_mem hc hk.slash, by decide,
    fun c hc => hpart c (isPartChar_word name c hc), by decide, by decide, hchars, by decide,
    by decide, List.forall_mem_nil _⟩

/-- The text of a definition is free of slashes, so nothing of it is a comment. -/
theorem Definition.ne_slash (d : Definition) : ∀ c ∈ d.text, c ≠ '/' := by
  cases d with
  | dictionary name fields =>
    exact ne_slash_blockText isKeyword_dictionary [] name (isBody_membersText Field.isPart fields)
  | enum isError name variants =>
    exact ne_slash_blockText isKeyword_enum _ name (isBody_variantsText variants)
  | interface name ms =>
    exact ne_slash_blockText isKeyword_interface [] name (isBody_membersText Member.isPart ms)
  | callbackInterface name methods =>
    exact ne_slash_blockText isKeyword_callbackInterface [] name
      (isBody_membersText Function.isPart methods)
  | typedef type name =>
    have htype : ∀ c ∈ type.text, c ≠ '/' := fun c hc =>
      ne_of_isTypeChar (by decide) c (type.isTypeChar_of_mem c hc)
    have hword (w : Word) : ∀ c ∈ w.chars, c ≠ '/' := fun c hc => w.ne_of_mem hc (by decide)
    simp only [text, typedefText, List.forall_mem_append, List.forall_mem_cons]
    exact ⟨hword _, by decide, htype, by decide, hword name, by decide, List.forall_mem_nil _⟩

namespace Document

private theorem texts_ne_nil (d : Document) : d.texts ≠ [] := by simp [texts]

private theorem ne_slash_of_mem_texts (d : Document) : ∀ t ∈ d.texts, ∀ c ∈ t, c ≠ '/' := by
  have hdefinitions (ds : List Definition) : ∀ t ∈ ds.map Definition.text, ∀ c ∈ t, c ≠ '/' := by
    intro t ht
    obtain ⟨e, -, rfl⟩ := List.mem_map.mp ht
    exact e.ne_slash
  simp only [texts, List.forall_mem_append, List.forall_mem_cons]
  exact ⟨hdefinitions _, ne_slash_blockText isKeyword_namespace [] d.name
    (isBody_membersText Function.isPart d.functions), hdefinitions _⟩

/-- Nothing of a document is a comment. -/
theorem ne_slash (d : Document) (between atEnd : Blanks) :
    ∀ c ∈ between.1.intercalate d.texts ++ atEnd.1, c ≠ '/' := by
  have hblank (b : Blanks) : ∀ c ∈ b.1, c ≠ '/' := by
    rintro c hc rfl
    exact absurd (isBlank_of_mem_allBlank b.2 hc) (by decide)
  have hjoined : ∀ c ∈ between.1 ++ between.1.intercalate d.texts, c ≠ '/' := by
    rw [append_intercalate d.texts_ne_nil]
    intro c hc
    obtain ⟨t, ht, hc⟩ := List.mem_flatMap.mp hc
    rcases List.mem_append.mp hc with hc | hc
    · exact hblank between c hc
    · exact d.ne_slash_of_mem_texts t ht c hc
  simp only [List.forall_mem_append] at hjoined ⊢
  exact ⟨hjoined.2, hblank atEnd⟩

/-- The definitions of a document are read in their order, up to the blanks at the end. -/
theorem readFrom_texts (d : Document) (between atEnd : Blanks) :
    readFrom source crate ⟨none, []⟩ (between.1.intercalate d.texts ++ atEnd.1) =
      .ok ⟨some d.name.string, (d.after.map (Definition.items crate)).reverse
        ++ (d.functions.map fun f => .function (f.declared crate))
        :: (d.before.map (Definition.items crate)).reverse⟩ := by
  -- with the same blanks in front of the first definition as well, all definitions are alike
  rw [← readFrom_append_blanks between.2, ← List.append_assoc, append_intercalate d.texts_ne_nil,
    texts, List.flatMap_append, List.flatMap_cons]
  simp only [List.append_assoc]
  rw [readFrom_definitions, readFrom_append_blanks between.2, d.readFrom_namespaceText,
    readFrom_definitions, readFrom_of_allBlank atEnd.2, List.append_nil]

/-- A document is read back from its text: the namespace, and the items of its definitions in their
order, the members of an interface directly behind their object. -/
theorem read_text (d : Document) (between atEnd : Blanks) (crate : Value) :
    read (d.text between atEnd) crate = .ok (d.group crate) := by
  rw [read, text, String.toList_ofList, blankComments_of_forall (d.ne_slash between atEnd)]
  simp only [d.readFrom_texts, ok_bind]
  simp [group, items, List.flatMap, pure, Except.pure]

/-- The text of a document that such a reading starts from. -/
example :
    let word (s : String) (h : isWordText s.toList = true) : Word := ⟨s.toList, h⟩
    let argument : Field :=
      ⟨.record (.word (word "string" rfl)) (.word (word "u8" rfl)), word "x" rfl⟩
    text ⟨[.enum true (word "E" rfl) [word "A" rfl, word "B" rfl]], word "n" rfl,
        [⟨some (word "E" rfl), true, none, word "f" rfl, [argument]⟩], []⟩ ⟨[' '], rfl⟩ ⟨[], rfl⟩ =
      "[Error] enum E \x7b \"A\", \"B\" \x7d; namespace n \x7b "
        ++ "[Throws=E, Async] void f(record<string, u8> x); \x7d;" := by
  decide +kernel

end Document
end Grammar
end BindGen.Udl

import BindGen.Proofs.Emitter.Outputs
import BindGen.Proofs.Interface.Ties

/-!
# Documents of typed declarations

Every template can be rendered for whatever is typed, if the settings name a library and modules
that can be shown. What is rendered fails in the names and types of declarations only, and those of
typed declarations are texts.
-/

namespace BindGen

/-! ## Spellings -/

/-- The patterns of containers can be filled with any spellings. -/
structure Spelling.Fills (s : Spelling) : Prop where
  optional : ∀ inner, ∃ text, Pattern.fill s.optionalPattern [("inner", inner)] = .ok text
  sequence : ∀ inner, ∃ text, Pattern.fill s.sequencePattern [("inner", inner)] = .ok text
  map : ∀ key value,
    ∃ text, Pattern.fill s.mapPattern [("key", key), ("value", value)] = .ok text

/-- The built-in languages can spell every container. -/
theorem Language.fills_spelling (l : Language) : l.spelling.Fills := by
  refine ⟨fun inner => ?_, fun inner => ?_, fun key value => ?_⟩ <;> cases l <;> exact ⟨_, rfl⟩

private theorem Naming.classNameOf_value_isOk (t : LooseText) :
    ∃ name, classNameOf t.value = .ok name := by
  cases t <;> exact ⟨_, rfl⟩

private theorem Naming.classNameOf_isOk {v : Value} (h : v.isText = true) :
    ∃ name, classNameOf v = .ok name := by
  obtain ⟨s, rfl⟩ := Value.isText_iff.mp h
  exact classNameOf_value_isOk s

private theorem Spelling.functionName_value_isOk (s : Spelling) (t : LooseText) :
    ∃ name, s.functionName t.value = .ok name := by
  unfold functionName
  split
  · cases t <;> exact ⟨_, rfl⟩
  · exact ⟨_, rfl⟩

private theorem Spelling.functionName_isOk (s : Spelling) {v : Value} (h : v.isText = true) :
    ∃ name, s.functionName v = .ok name := by
  obtain ⟨name, rfl⟩ := Value.isText_iff.mp h
  exact s.functionName_value_isOk name

namespace Spelling.Fills

variable {s : Spelling}

/-- Every type has a spelling. -/
theorem typeText_isOk (h : s.Fills) (type : List Char) : ∃ text, s.typeText type = .ok text := by
  induction hn : type.length using Nat.strongRecOn generalizing type with
  | ind n ih =>
    subst hn
    have hpart {part : List Char} (hp : part ∈ (TypeShape.ofText type).parts) :
        ∃ text, s.typeText part = .ok text :=
      ih _ (TypeShape.length_of_mem_parts hp) part rfl
    rw [typeText]
    split
    · exact ⟨_, rfl⟩
    · next inner hshape =>
      exact bind_isOk (hpart (hshape ▸ List.mem_singleton_self inner)) h.optional
    · next inner hshape =>
      exact bind_isOk (hpart (hshape ▸ List.mem_singleton_self inner)) h.sequence
    · next key value hshape =>
      have hvalue : value ∈ [key, value] := List.mem_cons_of_mem _ (List.mem_singleton_self value)
      exact bind_isOk (hpart (hshape ▸ List.mem_cons_self)) fun text =>
        bind_isOk (hpart (hshape ▸ hvalue)) (h.map text)

/-- A format that fills every place spells each optional text as a type. -/
theorem typeOf_isOk (h : s.Fills) {type : Value} (ht : type.isOptionalText = true) :
    ∃ text, s.typeOf type = .ok text := by
  obtain rfl | ⟨t, rfl⟩ := Value.isOptionalText_iff.mp ht
  · exact ⟨_, rfl⟩
  · exact bind_isOk (h.typeText_isOk t.toList) fun _ => ⟨_, rfl⟩

end Spelling.Fills

/-! ## Typed declarations -/

private theorem FunctionDecl.texts_of_isTyped {d : FunctionDecl} (h : d.isTyped = true) :
    d.name.isText = true ∧ d.returnType.isOptionalText = true ∧
      d.throws.isOptionalText = true := by
  simp only [isTyped, Bool.and_eq_true] at h
  exact ⟨h.1.1.1.1.2, h.1.1.1.2, h.1.1.2⟩

private theorem MethodDecl.texts_of_isTyped {d : MethodDecl} (h : d.isTyped = true) :
    d.name.isText = true ∧ d.returnType.isOptionalText = true := by
  simp only [isTyped, Bool.and_eq_true] at h
  exact ⟨h.1.1.1.1.2, h.1.1.1.2⟩

private theorem CallbackInterfaceDecl.texts_of_isTyped {d : CallbackInterfaceDecl}
    (h : d.isTyped = true) : d.name.isText = true ∧ ∀ m ∈ d.methods, m.isTyped = true := by
  simp only [isTyped, Bool.and_eq_true, List.all_eq_true] at h
  exact ⟨h.1.1.2, h.1.2⟩

namespace ObjectDefinition.WellFiled

variable {object : ObjectDefinition}

private theorem isText_name (h : object.WellFiled) : object.name.isText = true := by
  have hd := h.declaration
  simp only [ObjectDecl.isTyped, Bool.and_eq_true] at hd
  exact hd.1.2

/-- The constructors of an object can be listed, and all of them have names. -/
theorem exists_constructorsOf (h : object.WellFiled) :
    ∃ cs, Outline.constructorsOf object = .ok cs ∧ ∀ c ∈ cs, c.name.isText = true := by
  obtain ⟨cs, hcs, hp⟩ := h.constructors.exists_membersInOrder
  refine ⟨cs, hcs, fun c hc => ?_⟩
  obtain ⟨e, he, rfl⟩ := List.mem_map.mp (hp.mem_iff.mp hc)
  have ht : e.2.isTyped = true := h.constructors.typed e he
  simp only [ConstructorDecl.isTyped, Bool.and_eq_true] at ht
  exact ht.1.1.2

/-- The methods of an object can be listed, and all of them are typed. -/
theorem exists_methodsOf (h : object.WellFiled) :
    ∃ ms, Outline.methodsOf object = .ok ms ∧ ∀ m ∈ ms, m.isTyped = true := by
  obtain ⟨ms, hms, hp⟩ := h.methods.exists_membersInOrder
  refine ⟨ms, hms, fun m hm => ?_⟩
  obtain ⟨e, he, rfl⟩ := List.mem_map.mp (hp.mem_iff.mp hm)
  exact h.methods.typed e he

end ObjectDefinition.WellFiled

/-! ## Outlines of typed declarations -/

/-- An outline that can name its library and the modules of other crates. -/
structure Outline.Linkable (o : Outline) : Prop where
  imports : ∃ externals, o.externalsInOrder = .ok externals ∧ ∀ e ∈ externals,
    (∃ crate, (Value.scalar e.1).shown = .ok crate) ∧ ∃ module, e.2.shown = .ok module
  cdylibName : ∃ name, o.cdylibName.shown = .ok name

/-- An outline of typed declarations that can name what it links to. -/
structure Outline.Writable (o : Outline) : Prop extends o.Linkable where
  customTypes : ∀ c ∈ o.customTypes, c.isTyped = true
  records : ∀ r ∈ o.records, r.isTyped = true
  enums : ∀ e ∈ o.enums, e.isTyped = true
  callbackInterfaces : ∀ c ∈ o.callbackInterfaces, c.isTyped = true
  functions : ∀ f ∈ o.functions, f.isTyped = true
  objects : ∀ object ∈ o.objects, object.WellFiled

namespace Outline

private theorem Writable.isText_name_record {o : Outline} (ho : o.Writable) {r : RecordDecl}
    (h : r ∈ o.records) : r.name.isText = true := by
  have ht := ho.records r h
  simp only [RecordDecl.isTyped, Bool.and_eq_true] at ht
  exact ht.1.2

private theorem Writable.isText_name_enum {o : Outline} (ho : o.Writable) {e : EnumDecl}
    (h : e ∈ o.enums) :
    e.name.isText = true := by
  have ht := ho.enums e h
  simp only [EnumDecl.isTyped, Bool.and_eq_true] at ht
  exact ht.1.1.2

/-- Putting declarations in order only permutes them. -/
theorem inOrder_perm {α : Type} {t : Table α} {ds : List α} (h : inOrder t = .ok ds) :
    ds.Perm (Table.values t) := by
  obtain ⟨sorted, hsorted, rfl⟩ := exists_of_map_eq_ok h
  exact (sortByKey_perm hsorted).map Prod.snd

/-- The declarations of an outline are those of its interface, in some order. -/
structure Declares (o : Outline) (i : Interface) : Prop where
  crateName : o.crateName = i.crateName
  functions : o.functions.Perm (Table.values i.functions)
  records : o.records.Perm (Table.values i.records)
  enums : o.enums.Perm (Table.values i.enums)
  objects : o.objects.Perm (Table.values i.objects)
  callbackInterfaces : o.callbackInterfaces.Perm (Table.values i.callbackInterfaces)
  customTypes : o.customTypes.Perm (Table.values i.customTypes)

/-- An outline made from an interface declares what the interface does. -/
theorem declares_of_ofInterface {i : Interface} {settings : Table Value}
    {package : Except Fault String} {o : Outline} (h : ofInterface i settings package = .ok o) :
    o.Declares i := by
  obtain ⟨moduleName, -, h⟩ := exists_of_bind_eq_ok h
  obtain ⟨checksum, -, h⟩ := exists_of_bind_eq_ok h
  obtain ⟨functions, hfunctions, h⟩ := exists_of_bind_eq_ok h
  obtain ⟨records, hrecords, h⟩ := exists_of_bind_eq_ok h
  obtain ⟨enums, henums, h⟩ := exists_of_bind_eq_ok h
  obtain ⟨objects, hobjects, h⟩ := exists_of_bind_eq_ok h
  obtain ⟨callbackInterfaces, hcallbackInterfaces, h⟩ := exists_of_bind_eq_ok h
  obtain ⟨customTypes, hcustomTypes, h⟩ := exists_of_bind_eq_ok h
  obtain ⟨packageName, -, h⟩ := exists_of_bind_eq_ok h
  obtain rfl := Except.ok.inj h
  exact {
    crateName := rfl
    functions := inOrder_perm hfunctions
    records := inOrder_perm hrecords
    enums := inOrder_perm henums
    objects := inOrder_perm hobjects
    callbackInterfaces := inOrder_perm hcallbackInterfaces
    customTypes := inOrder_perm hcustomTypes }

/-- Modules that are recorded in texts can be named. -/
theorem linkable_of_texts {o : Outline} (hk : o.externalModules.TextKeyed)
    (hm : ∀ e ∈ o.externalModules, e.2.isText = true) (hc : o.cdylibName.isOptionalText = true) :
    o.Linkable := by
  have hfolded : ∀ e ∈ o.externalModules, (foldCase e.1).IsWord := by
    intro e he
    obtain ⟨crate, hcrate⟩ := hk e he
    rw [hcrate]
    exact Scalar.isWord_text _
  refine ⟨⟨_, sortByKey_of_words hfolded, fun e he => ?_⟩, ?_⟩
  · have he := (mem_sortOn hfolded).mp he
    obtain ⟨crate, hcrate⟩ := hk e he
    obtain ⟨module, hmodule⟩ := Value.isText_iff.mp (hm e he)
    rw [hcrate, hmodule]
    exact ⟨⟨_, rfl⟩, ⟨_, rfl⟩⟩
  · obtain hnull | ⟨name, hname⟩ := Value.isOptionalText_iff.mp hc
    · rw [hnull]
      exact ⟨_, rfl⟩
    · rw [hname]
      exact ⟨_, rfl⟩

/-- The outline of an interface of typed declarations is writable if the settings allow it. -/
theorem Declares.writable {o : Outline} {i : Interface} (h : o.Declares i) (hi : i.WellFiled)
    (hl : o.Linkable) : o.Writable := by
  have htyped {α : Type} [Declaration α] [TypedDeclaration α] {t : Table α} (ht : Table.Filed t)
      {ds : List α} (hp : ds.Perm (Table.values t)) :
      ∀ d ∈ ds, TypedDeclaration.isTyped d = true := by
    intro d hd
    obtain ⟨e, he, rfl⟩ := List.mem_map.mp (hp.mem_iff.mp hd)
    exact ht.typed e he
  refine {
    toLinkable := hl
    customTypes := htyped hi.customTypes h.customTypes
    records := htyped hi.records h.records
    enums := htyped hi.enums h.enums
    callbackInterfaces := htyped hi.callbackInterfaces h.callbackInterfaces
    functions := htyped hi.functions h.functions
    objects := fun object hobject => ?_ }
  obtain ⟨e, he, rfl⟩ := List.mem_map.mp (h.objects.mem_iff.mp hobject)
  exact hi.objects.wellFiled e he

end Outline

namespace Template

open Naming (classNameOf_isOk)

variable {s : Spelling} {o : Outline}

/-! ## What templates share -/

private theorem forEach_isOk {α : Type} {items : List α} {render : α → Except Fault Document}
    (h : ∀ a ∈ items, ∃ d, render a = .ok d) : ∃ d, forEach items render = .ok d :=
  bind_isOk (mapM_isOk h) fun _ => ⟨_, rfl⟩

private theorem parameters_isOk (hs : s.Fills) (fields : List Field) :
    ∃ ps, parameters s fields = .ok ps :=
  mapM_isOk fun f _ => bind_isOk (hs.typeText_isOk f.type.display.toList) fun _ => ⟨_, rfl⟩

/-- What is rendered from a name, parameters and a type can be rendered. -/
theorem signature_isOk {β : Type} (hs : s.Fills) {name type : Value} (hn : name.isText = true)
    (ht : type.isOptionalText = true) (inputs : List Field) {render : String → String → String → β} :
    ∃ b, (do
      let function ← s.functionName name
      let parameters ← (do return commas (typed (← parameters s inputs)))
      let type ← s.typeOf type
      return render function parameters type) = Except.ok b := by
  refine bind_isOk (s.functionName_isOk hn) fun function => ?_
  refine bind_isOk (bind_isOk (parameters_isOk hs inputs) fun _ => ⟨_, rfl⟩) fun parameters => ?_
  exact bind_isOk (hs.typeOf_isOk ht) fun _ => ⟨_, rfl⟩

/-- Listed items that can be rendered one by one, followed by what can be rendered behind them. -/
theorem listed_isOk {α β : Type} {P : α → Prop} {listed : Except Fault (List α)}
    {render : α → Except Fault Document} {body : Document → Except Fault β}
    (hl : ∃ items, listed = .ok items ∧ ∀ a ∈ items, P a)
    (h : ∀ a, P a → ∃ d, render a = .ok d) (hbody : ∀ d, ∃ b, body d = .ok b) :
    ∃ b, (listed >>= fun items => forEach items render >>= body) = .ok b := by
  obtain ⟨items, rfl, hp⟩ := hl
  rw [ok_bind]
  exact bind_isOk (forEach_isOk fun a ha => h a (hp a ha)) hbody

private theorem customTypes_isOk (hs : s.Fills) (ho : o.Writable)
    {lines : CustomTypeDecl → String → Document} :
    ∃ d, (forEach o.customTypes fun c => do return lines c (← s.typeOf c.builtin)) = .ok d := by
  refine forEach_isOk fun c hc => bind_isOk (hs.typeOf_isOk ?_) fun _ => ⟨_, rfl⟩
  have ht := ho.customTypes c hc
  simp only [CustomTypeDecl.isTyped, Bool.and_eq_true] at ht
  exact Value.isOptionalText_of_isText ht.2

/-! ## The templates -/

namespace Kotlin

private theorem foreign_isOk (hs : s.Fills) (symbol : String) (receiver : Option String)
    (inputs : List Field) : ∃ p, foreign s symbol receiver inputs = .ok p :=
  bind_isOk (parameters_isOk hs inputs) fun _ => ⟨_, rfl⟩

private theorem library_isOk (hs : s.Fills) (ho : o.Writable) : ∃ d, library s o = .ok d := by
  refine bind_isOk (forEach_isOk fun f hf => ?_) fun functions => ?_
  · refine bind_isOk (foreign_isOk hs _ _ f.inputs) fun used => ?_
    obtain ⟨-, hreturn, -⟩ := FunctionDecl.texts_of_isTyped (ho.functions f hf)
    exact bind_isOk (hs.typeOf_isOk hreturn) fun _ => ⟨_, rfl⟩
  refine bind_isOk (forEach_isOk fun object hobject => ?_) fun members => ?_
  · have hfiled := ho.objects object hobject
    refine listed_isOk hfiled.exists_constructorsOf (fun c _ => ?_) fun constructors => ?_
    · exact bind_isOk (foreign_isOk hs _ _ c.inputs) fun _ => ⟨_, rfl⟩
    refine listed_isOk hfiled.exists_methodsOf (fun m hm => ?_) fun methods => ⟨_, rfl⟩
    refine bind_isOk (foreign_isOk hs _ _ m.inputs) fun used => ?_
    obtain ⟨-, hreturn⟩ := MethodDecl.texts_of_isTyped hm
    exact bind_isOk (hs.typeOf_isOk hreturn) fun _ => ⟨_, rfl⟩
  · exact bind_isOk ho.cdylibName fun _ => ⟨_, rfl⟩

private theorem record_isOk (hs : s.Fills) {r : RecordDecl} (h : r.name.isText = true) :
    ∃ d, record s o r = .ok d := by
  refine bind_isOk (classNameOf_isOk h) fun name => bind_isOk ?_ fun fields => ⟨_, rfl⟩
  refine forEach_isOk fun f _ => bind_isOk (s.functionName_value_isOk f.name) fun _ => ?_
  exact bind_isOk (hs.typeText_isOk f.type.display.toList) fun _ => ⟨_, rfl⟩

private theorem enum_isOk {e : EnumDecl} (h : e.name.isText = true) : ∃ d, enum o e = .ok d := by
  refine bind_isOk (classNameOf_isOk h) fun name => ?_
  split
  · refine bind_isOk (mapM_isOk fun v _ => ?_) fun variants => ⟨_, rfl⟩
    exact bind_isOk (Naming.classNameOf_value_isOk v.name) fun _ => ⟨_, rfl⟩
  · exact ⟨_, rfl⟩

private theorem companion_isOk (hs : s.Fills) {object : ObjectDefinition} (h : object.WellFiled)
    (name : String) : ∃ d, companion s o object name = .ok d := by
  unfold companion
  split
  · exact ⟨_, rfl⟩
  · refine listed_isOk h.exists_constructorsOf (fun c hc => ?_) fun constructors => ⟨_, rfl⟩
    refine bind_isOk (s.functionName_isOk hc) fun _ => ?_
    exact bind_isOk (bind_isOk (parameters_isOk hs c.inputs) fun _ => ⟨_, rfl⟩) fun _ => ⟨_, rfl⟩

private theorem object_isOk (hs : s.Fills) {object : ObjectDefinition} (h : object.WellFiled) :
    ∃ d, Kotlin.object s o object = .ok d := by
  refine bind_isOk (classNameOf_isOk h.isText_name) fun name => ?_
  refine bind_isOk (companion_isOk hs h name) fun companion => ?_
  refine listed_isOk h.exists_methodsOf (fun m hm => ?_) fun methods => ⟨_, rfl⟩
  obtain ⟨hname, hreturn⟩ := MethodDecl.texts_of_isTyped hm
  exact signature_isOk hs hname hreturn m.inputs

private theorem callbackInterface_isOk (hs : s.Fills) {c : CallbackInterfaceDecl}
    (h : c.isTyped = true) :
    ∃ d, callbackInterface s c = .ok d := by
  obtain ⟨hname, hmethods⟩ := CallbackInterfaceDecl.texts_of_isTyped h
  refine bind_isOk (classNameOf_isOk hname) fun name => bind_isOk ?_ fun methods => ⟨_, rfl⟩
  refine forEach_isOk fun m hm => ?_
  obtain ⟨hname, hreturn, -⟩ := FunctionDecl.texts_of_isTyped (hmethods m hm)
  exact signature_isOk hs hname hreturn m.inputs

private theorem function_isOk (hs : s.Fills) {f : FunctionDecl} (h : f.isTyped = true) :
    ∃ d, function s o f = .ok d := by
  obtain ⟨hname, hreturn, hthrows⟩ := FunctionDecl.texts_of_isTyped h
  unfold function
  split
  · next htruthy =>
    -- No type to be thrown would not count as true.
    obtain hnull | ⟨error, htext⟩ := Value.isOptionalText_iff.mp hthrows
    · rw [hnull] at htruthy
      cases htruthy
    · refine bind_isOk (classNameOf_isOk (Value.isText_iff.mpr ⟨error, htext⟩)) fun _ => ?_
      exact signature_isOk hs hname hreturn f.inputs
  · exact signature_isOk hs hname hreturn f.inputs

/-- A Kotlin file can be written. -/
theorem render_isOk (hs : s.Fills) (ho : o.Writable) : ∃ d, render s o = .ok d := by
  refine listed_isOk ho.imports (fun e he => ?_) fun imports => ?_
  · exact bind_isOk he.2 fun _ => ⟨_, rfl⟩
  refine bind_isOk (library_isOk hs ho) fun library => ?_
  refine bind_isOk (customTypes_isOk hs ho) fun customTypes => ?_
  refine bind_isOk (forEach_isOk fun r hr => record_isOk hs (ho.isText_name_record hr))
    fun records => ?_
  refine bind_isOk (forEach_isOk fun e he => enum_isOk (ho.isText_name_enum he)) fun enums => ?_
  refine bind_isOk (forEach_isOk fun object hobject => object_isOk hs (ho.objects object hobject))
    fun objects => ?_
  refine bind_isOk (forEach_isOk fun c hc => callbackInterface_isOk hs (ho.callbackInterfaces c hc))
    fun callbackInterfaces => ?_
  exact bind_isOk (forEach_isOk fun f hf => function_isOk hs (ho.functions f hf))
    fun functions => ⟨_, rfl⟩

end Kotlin

namespace Swift

private theorem record_isOk (hs : s.Fills) {r : RecordDecl} (h : r.name.isText = true) :
    ∃ d, record s o r = .ok d := by
  refine bind_isOk (classNameOf_isOk h) fun name => bind_isOk ?_ fun fields => ⟨_, rfl⟩
  refine forEach_isOk fun f _ => bind_isOk (s.functionName_value_isOk f.name) fun _ => ?_
  exact bind_isOk (hs.typeText_isOk f.type.display.toList) fun _ => ⟨_, rfl⟩

private theorem enum_isOk {e : EnumDecl} (h : e.name.isText = true) : ∃ d, enum s o e = .ok d := by
  refine bind_isOk (classNameOf_isOk h) fun name => ?_
  refine bind_isOk (mapM_isOk fun v _ => ?_) fun _ => ⟨_, rfl⟩
  exact bind_isOk (s.functionName_isOk rfl) fun _ => ⟨_, rfl⟩

private theorem object_isOk (hs : s.Fills) {object : ObjectDefinition} (h : object.WellFiled) :
    ∃ d, Swift.object s o object = .ok d := by
  refine bind_isOk (classNameOf_isOk h.isText_name) fun name => ?_
  refine listed_isOk h.exists_constructorsOf (fun c hc => ?_) fun constructors => ?_
  · refine bind_isOk (s.functionName_isOk hc) fun _ => ?_
    exact bind_isOk (bind_isOk (parameters_isOk hs c.inputs) fun _ => ⟨_, rfl⟩) fun _ => ⟨_, rfl⟩
  refine listed_isOk h.exists_methodsOf (fun m hm => ?_) fun methods => ⟨_, rfl⟩
  obtain ⟨hname, hreturn⟩ := MethodDecl.texts_of_isTyped hm
  exact signature_isOk hs hname hreturn m.inputs

private theorem callbackInterface_isOk (hs : s.Fills) {c : CallbackInterfaceDecl}
    (h : c.isTyped = true) :
    ∃ d, callbackInterface s c = .ok d := by
  obtain ⟨hname, hmethods⟩ := CallbackInterfaceDecl.texts_of_isTyped h
  refine bind_isOk (classNameOf_isOk hname) fun name => bind_isOk ?_ fun methods => ⟨_, rfl⟩
  refine forEach_isOk fun m hm => ?_
  obtain ⟨hname, hreturn, -⟩ := FunctionDecl.texts_of_isTyped (hmethods m hm)
  exact signature_isOk hs hname hreturn m.inputs

private theorem function_isOk (hs : s.Fills) {f : FunctionDecl} (h : f.isTyped = true) :
    ∃ d, function s o f = .ok d := by
  obtain ⟨hname, hreturn, -⟩ := FunctionDecl.texts_of_isTyped h
  exact signature_isOk hs hname hreturn f.inputs

/-- A Swift file can be written. -/
theorem render_isOk (hs : s.Fills) (ho : o.Writable) : ∃ d, render s o = .ok d := by
  refine listed_isOk ho.imports (fun e he => ?_) fun imports => ?_
  · exact bind_isOk he.2 fun _ => ⟨_, rfl⟩
  refine bind_isOk (customTypes_isOk hs ho) fun customTypes => ?_
  refine bind_isOk (forEach_isOk fun r hr => record_isOk hs (ho.isText_name_record hr))
    fun records => ?_
  refine bind_isOk (forEach_isOk fun e he => enum_isOk (ho.isText_name_enum he)) fun enums => ?_
  refine bind_isOk (forEach_isOk fun object hobject => object_isOk hs (ho.objects object hobject))
    fun objects => ?_
  refine bind_isOk (forEach_isOk fun c hc => callbackInterface_isOk hs (ho.callbackInterfaces c hc))
    fun callbackInterfaces => ?_
  exact bind_isOk (forEach_isOk fun f hf => function_isOk hs (ho.functions f hf))
    fun functions => ⟨_, rfl⟩

end Swift

namespace Python

private theorem furtherParameters_isOk (hs : s.Fills) (fields : List Field) :
    ∃ text, furtherParameters s fields = .ok text :=
  bind_isOk (parameters_isOk hs fields) fun _ => ⟨_, rfl⟩

private theorem record_isOk (hs : s.Fills) {r : RecordDecl} (h : r.name.isText = true) :
    ∃ d, record s o r = .ok d := by
  refine bind_isOk (classNameOf_isOk h) fun name => bind_isOk ?_ fun fields => ⟨_, rfl⟩
  exact forEach_isOk fun f _ => bind_isOk (hs.typeText_isOk f.type.display.toList) fun _ => ⟨_, rfl⟩

private theorem enum_isOk {e : EnumDecl} (h : e.name.isText = true) : ∃ d, enum o e = .ok d := by
  refine bind_isOk (classNameOf_isOk h) fun name => ?_
  split
  · refine bind_isOk (forEach_isOk fun v _ => ?_) fun variants => ⟨_, rfl⟩
    exact bind_isOk (Naming.classNameOf_value_isOk v.name) fun _ => ⟨_, rfl⟩
  · exact ⟨_, rfl⟩

private theorem function_isOk (hs : s.Fills) {f : FunctionDecl} (h : f.isTyped = true) :
    ∃ d, function s o f = .ok d := by
  obtain ⟨-, hreturn, -⟩ := FunctionDecl.texts_of_isTyped h
  refine bind_isOk ?_ fun parameters => bind_isOk (hs.typeOf_isOk hreturn) fun _ => ⟨_, rfl⟩
  exact bind_isOk (parameters_isOk hs f.inputs) fun _ => ⟨_, rfl⟩

private theorem callbackInterface_isOk (hs : s.Fills) {c : CallbackInterfaceDecl}
    (h : c.isTyped = true) :
    ∃ d, callbackInterface s c = .ok d := by
  obtain ⟨hname, hmethods⟩ := CallbackInterfaceDecl.texts_of_isTyped h
  refine bind_isOk (classNameOf_isOk hname) fun name => bind_isOk ?_ fun methods => ⟨_, rfl⟩
  refine forEach_isOk fun m hm => bind_isOk (furtherParameters_isOk hs m.inputs) fun _ => ?_
  obtain ⟨-, hreturn, -⟩ := FunctionDecl.texts_of_isTyped (hmethods m hm)
  exact bind_isOk (hs.typeOf_isOk hreturn) fun _ => ⟨_, rfl⟩

private theorem object_isOk (hs : s.Fills) {object : ObjectDefinition} (h : object.WellFiled) :
    ∃ d, Python.object s o object = .ok d := by
  refine bind_isOk (classNameOf_isOk h.isText_name) fun name => ?_
  refine listed_isOk h.exists_constructorsOf (fun c _ => ?_) fun constructors => ?_
  · exact bind_isOk (furtherParameters_isOk hs c.inputs) fun _ => ⟨_, rfl⟩
  refine listed_isOk h.exists_methodsOf (fun m hm => ?_) fun methods => ⟨_, rfl⟩
  refine bind_isOk (furtherParameters_isOk hs m.inputs) fun _ => ?_
  obtain ⟨-, hreturn⟩ := MethodDecl.texts_of_isTyped hm
  exact bind_isOk (hs.typeOf_isOk hreturn) fun _ => ⟨_, rfl⟩

/-- A Python module can be written. -/
theorem render_isOk (hs : s.Fills) (ho : o.Writable) : ∃ d, render s o = .ok d := by
  refine listed_isOk ho.imports (fun e he => ?_) fun imports => ?_
  · exact bind_isOk he.2 fun _ => bind_isOk he.1 fun _ => ⟨_, rfl⟩
  refine bind_isOk (bind_isOk ho.cdylibName fun _ => ⟨_, rfl⟩) fun loader => ?_
  refine bind_isOk (customTypes_isOk hs ho) fun customTypes => ?_
  refine bind_isOk (forEach_isOk fun r hr => record_isOk hs (ho.isText_name_record hr))
    fun records => ?_
  refine bind_isOk (forEach_isOk fun e he => enum_isOk (ho.isText_name_enum he)) fun enums => ?_
  refine bind_isOk (forEach_isOk fun object hobject => object_isOk hs (ho.objects object hobject))
    fun objects => ?_
  refine bind_isOk (forEach_isOk fun c hc => callbackInterface_isOk hs (ho.callbackInterfaces c hc))
    fun callbackInterfaces => ?_
  exact bind_isOk (forEach_isOk fun f hf => function_isOk hs (ho.functions f hf))
    fun functions => ⟨_, rfl⟩

end Python

namespace Ruby

private theorem record_isOk (hs : s.Fills) {r : RecordDecl} (h : r.name.isText = true) :
    ∃ d, record s o r = .ok d := by
  refine bind_isOk (forEach_isOk fun f _ => ?_) fun attributes => ?_
  · exact bind_isOk (hs.typeText_isOk f.type.display.toList) fun _ => ⟨_, rfl⟩
  · exact bind_isOk (classNameOf_isOk h) fun _ => ⟨_, rfl⟩

private theorem enum_isOk {e : EnumDecl} (h : e.name.isText = true) : ∃ d, enum o e = .ok d := by
  refine bind_isOk (classNameOf_isOk h) fun name => ?_
  split
  · refine bind_isOk (mapM_isOk fun v _ => ?_) fun variants => ⟨_, rfl⟩
    exact bind_isOk (Naming.classNameOf_value_isOk v.name) fun _ => ⟨_, rfl⟩
  · exact ⟨_, rfl⟩

private theorem object_isOk (hs : s.Fills) {object : ObjectDefinition} (h : object.WellFiled) :
    ∃ d, Ruby.object s o object = .ok d := by
  refine bind_isOk (classNameOf_isOk h.isText_name) fun name => ?_
  obtain ⟨cs, hcs, -⟩ := h.exists_constructorsOf
  refine bind_isOk ⟨cs, hcs⟩ fun constructors => ?_
  refine listed_isOk h.exists_methodsOf (fun m hm => ?_) fun methods => ⟨_, rfl⟩
  obtain ⟨-, hreturn⟩ := MethodDecl.texts_of_isTyped hm
  exact bind_isOk (hs.typeOf_isOk hreturn) fun _ => ⟨_, rfl⟩

private theorem function_isOk (hs : s.Fills) {f : FunctionDecl} (h : f.isTyped = true) :
    ∃ d, function s o f = .ok d := by
  obtain ⟨-, hreturn, -⟩ := FunctionDecl.texts_of_isTyped h
  refine bind_isOk (forEach_isOk fun a _ => ?_) fun comments => ?_
  · exact bind_isOk (hs.typeText_isOk a.type.display.toList) fun _ => ⟨_, rfl⟩
  · exact bind_isOk (hs.typeOf_isOk hreturn) fun _ => ⟨_, rfl⟩

/-- A Ruby file can be written. -/
theorem render_isOk (hs : s.Fills) (ho : o.Writable) : ∃ d, render s o = .ok d := by
  refine listed_isOk ho.imports (fun e he => ?_) fun imports => ?_
  · exact bind_isOk he.2 fun _ => ⟨_, rfl⟩
  refine bind_isOk ho.cdylibName fun cdylib => ?_
  refine bind_isOk (classNameOf_isOk rfl) fun name => ?_
  refine bind_isOk (forEach_isOk fun r hr => record_isOk hs (ho.isText_name_record hr))
    fun records => ?_
  refine bind_isOk (forEach_isOk fun e he => enum_isOk (ho.isText_name_enum he)) fun enums => ?_
  refine bind_isOk (forEach_isOk fun object hobject => object_isOk hs (ho.objects object hobject))
    fun objects => ?_
  exact bind_isOk (forEach_isOk fun f hf => function_isOk hs (ho.functions f hf))
    fun functions => ⟨_, rfl⟩

end Ruby

namespace CHeader

/-- A spelling of C types for all types that may be absent. -/
def CTypes.Spells (c : CTypes) : Prop :=
  ∀ type : Value, (type = .null ∨ ∃ t : LooseText, type = t.value) → ∃ text, c type = .ok text

private theorem spells_known : CTypes.Spells known := by
  rintro type (rfl | ⟨t | t, rfl⟩) <;> exact ⟨_, rfl⟩

private theorem CTypes.Spells.isOk {c : CTypes} (hc : c.Spells) {type : Value}
    (ht : type.isOptionalText = true) : ∃ text, c type = .ok text := by
  obtain rfl | ⟨t, rfl⟩ := Value.isOptionalText_iff.mp ht
  · exact hc .null (.inl rfl)
  · exact hc (.text t) (.inr ⟨t, rfl⟩)

variable {c : CTypes}

private theorem prototype_isOk (hc : c.Spells) (symbol : String) (receiver : Option String)
    (inputs : List Field) : ∃ p, prototype c symbol receiver inputs = .ok p := by
  refine bind_isOk (mapM_isOk fun f _ => ?_) fun _ => ⟨_, rfl⟩
  exact bind_isOk (hc f.type.value (.inr ⟨f.type, rfl⟩)) fun _ => ⟨_, rfl⟩

/-- A C header can be written. -/
theorem render_isOk (hc : c.Spells) (ho : o.Writable) : ∃ d, render c o = .ok d := by
  refine bind_isOk (mapM_isOk fun f hf => ?_) fun functions => ?_
  · obtain ⟨-, hreturn, -⟩ := FunctionDecl.texts_of_isTyped (ho.functions f hf)
    refine bind_isOk (hc.isOk hreturn) fun _ => ?_
    exact bind_isOk (prototype_isOk hc _ _ f.inputs) fun _ => ⟨_, rfl⟩
  refine bind_isOk (mapM_isOk fun object hobject => ?_) fun members => ⟨_, rfl⟩
  obtain ⟨cs, hcs, -⟩ := (ho.objects object hobject).exists_constructorsOf
  obtain ⟨ms, hms, htyped⟩ := (ho.objects object hobject).exists_methodsOf
  have hcs' : (Outline.constructorsOf object).mapError Gap.fault = .ok cs := by rw [hcs]; rfl
  have hms' : (Outline.methodsOf object).mapError Gap.fault = .ok ms := by rw [hms]; rfl
  rw [hcs', ok_bind]
  refine bind_isOk (mapM_isOk fun d _ => ?_) fun constructors => ?_
  · exact bind_isOk (prototype_isOk hc _ _ d.inputs) fun _ => ⟨_, rfl⟩
  rw [hms', ok_bind]
  refine bind_isOk (mapM_isOk fun m hm => ?_) fun methods => ⟨_, rfl⟩
  obtain ⟨-, hreturn⟩ := MethodDecl.texts_of_isTyped (htyped m hm)
  refine bind_isOk (hc.isOk hreturn) fun _ => ?_
  exact bind_isOk (prototype_isOk hc _ _ m.inputs) fun _ => ⟨_, rfl⟩

end CHeader

/-- Every template of a language can be rendered for declarations that are typed. -/
theorem render_isOk {l : Language} {t : Template} (ht : t ∈ l.templateList) (ho : o.Writable) :
    ∃ d, t.render l.spelling l.style.cTypes o = .ok d := by
  have hs := l.fills_spelling
  have hfault {x : Except Fault Document} (hx : ∃ d, x = .ok d) :
      ∃ d, x.mapError CHeader.Gap.fault = .ok d := by
    obtain ⟨d, rfl⟩ := hx
    exact ⟨d, rfl⟩
  cases t with
  | kotlin => exact hfault (Kotlin.render_isOk hs ho)
  | swift => exact hfault (Swift.render_isOk hs ho)
  | python => exact hfault (Python.render_isOk hs ho)
  | ruby => exact hfault (Ruby.render_isOk hs ho)
  | cHeader =>
    -- Swift alone has headers, and it has C types.
    cases l <;> simp only [Language.templateList, List.mem_cons, List.not_mem_nil, or_false] at ht
    · cases ht
    · exact CHeader.render_isOk CHeader.spells_known ho
    · cases ht
    · cases ht

end Template
end BindGen

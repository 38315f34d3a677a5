import BindGen.Proofs.Interface.Merge

/-!
# Folding groups

What an interface holds after items have been added to it, and which items can be added. An item
fits if it agrees with the earlier items of its kind and name and, for a member of an object, if its
object has been declared. Adding keeps an interface in step with the list of items added so far, so
folding groups succeeds exactly if the groups name one namespace, their items agree, and no member
comes before the group of its object. Within a group the order of the items does not matter, as the
kinds are folded in an order that puts objects before their members.
-/

namespace BindGen

open Declaration TypedDeclaration

namespace Item

/-- The function that an item declares, if it declares one. -/
def function? : Item → Option FunctionDecl
  | function d => some d
  | _ => none

/-- The record that an item declares, if it declares one. -/
def record? : Item → Option RecordDecl
  | record d => some d
  | _ => none

/-- The enum that an item declares, if it declares one. -/
def enum? : Item → Option EnumDecl
  | enum d => some d
  | _ => none

/-- The object that an item declares, if it declares one. -/
def object? : Item → Option ObjectDecl
  | object d => some d
  | _ => none

/-- The callback interface that an item declares, if it declares one. -/
def callbackInterface? : Item → Option CallbackInterfaceDecl
  | callbackInterface d => some d
  | _ => none

/-- The custom type that an item declares, if it declares one. -/
def customType? : Item → Option CustomTypeDecl
  | customType d => some d
  | _ => none

/-- The constructor that an item declares for an object. -/
def constructorOf? (object : Scalar) : Item → Option ConstructorDecl
  | constructor d => if d.selfName.scalar? = some object then some d else none
  | _ => none

/-- The method that an item declares for an object. -/
def methodOf? (object : Scalar) : Item → Option MethodDecl
  | method d => if d.selfName.scalar? = some object then some d else none
  | _ => none

/-- The name of the object that an item is a member of. -/
def owner? : Item → Option Value
  | constructor d => some d.selfName
  | method d => some d.selfName
  | _ => none

/-- Items of one kind and one name, and for members of one object, have to agree. -/
def Agree : Item → Item → Prop
  | function a, function b => a.name = b.name → Declaration.Agree a b
  | constructor a, constructor b =>
    a.selfName = b.selfName → a.name = b.name → Declaration.Agree a b
  | method a, method b => a.selfName = b.selfName → a.name = b.name → Declaration.Agree a b
  | record a, record b => a.name = b.name → Declaration.Agree a b
  | enum a, enum b => a.name = b.name → Declaration.Agree a b
  | object a, object b => a.name = b.name → Declaration.Agree a b
  | callbackInterface a, callbackInterface b => a.name = b.name → Declaration.Agree a b
  | customType a, customType b => a.name = b.name → Declaration.Agree a b
  | _, _ => True

/-- An item agrees with itself. -/
theorem Agree.refl (a : Item) : a.Agree a := by
  cases a with
  | namespaceDecl d => trivial
  | udlFile d => trivial
  | constructor d => exact fun _ _ => Declaration.Agree.refl d
  | method d => exact fun _ _ => Declaration.Agree.refl d
  | function d => exact fun _ => Declaration.Agree.refl d
  | record d => exact fun _ => Declaration.Agree.refl d
  | enum d => exact fun _ => Declaration.Agree.refl d
  | object d => exact fun _ => Declaration.Agree.refl d
  | callbackInterface d => exact fun _ => Declaration.Agree.refl d
  | customType d => exact fun _ => Declaration.Agree.refl d

/-- Agreement of items goes both ways. -/
theorem Agree.symm {a b : Item} (h : a.Agree b) : b.Agree a := by
  cases a <;> cases b <;> first
    | trivial
    | exact fun hname => (h hname.symm).symm
    | exact fun hself hname => (h hself.symm hname.symm).symm

/-- A selection of declarations of one kind, as an item with a declaration of that kind sees it: the
item agrees with the items whose declarations agree with its own. -/
structure Selects {α : Type} [Declaration α] [TypedDeclaration α] (select : Item → Option α)
    (item : Item) (d : α) : Prop where
  self : select item = some d
  typed : ∀ a c, select a = some c → a.isTyped = true →
    TypedDeclaration.isTyped c = true
  agree : ∀ a, (∀ c, select a = some c → name c = name d → Declaration.Agree c d) ↔ a.Agree item

private theorem Selects.of_function (d : FunctionDecl) : Selects function? (function d) d where
  self := rfl
  typed a c h ht := by
    cases a <;> cases h
    exact ht
  agree a := by cases a <;> simp [function?, Agree, name]

private theorem Selects.of_record (d : RecordDecl) : Selects record? (record d) d where
  self := rfl
  typed a c h ht := by
    cases a <;> cases h
    exact ht
  agree a := by cases a <;> simp [record?, Agree, name]

private theorem Selects.of_enum (d : EnumDecl) : Selects enum? (enum d) d where
  self := rfl
  typed a c h ht := by
    cases a <;> cases h
    exact ht
  agree a := by cases a <;> simp [enum?, Agree, name]

private theorem Selects.of_object (d : ObjectDecl) : Selects object? (object d) d where
  self := rfl
  typed a c h ht := by
    cases a <;> cases h
    exact ht
  agree a := by cases a <;> simp [object?, Agree, name]

private theorem Selects.of_callbackInterface (d : CallbackInterfaceDecl) :
    Selects callbackInterface? (callbackInterface d) d where
  self := rfl
  typed a c h ht := by
    cases a <;> cases h
    exact ht
  agree a := by cases a <;> simp [callbackInterface?, Agree, name]

private theorem Selects.of_customType (d : CustomTypeDecl) :
    Selects customType? (customType d) d where
  self := rfl
  typed a c h ht := by
    cases a <;> cases h
    exact ht
  agree a := by cases a <;> simp [customType?, Agree, name]

private theorem constructorOf?_eq_some_iff {key : Scalar} {a : Item} {c : ConstructorDecl} :
    constructorOf? key a = some c ↔ a = constructor c ∧ c.selfName = .scalar key := by
  cases a <;> simp only [constructorOf?, reduceCtorEq, false_and]
  rw [Option.ite_none_right_eq_some, Value.scalar?_eq_some_iff, Option.some.injEq,
    constructor.injEq]
  exact ⟨fun ⟨h, e⟩ => ⟨e, e ▸ h⟩, fun ⟨e, h⟩ => ⟨e ▸ h, e⟩⟩

private theorem methodOf?_eq_some_iff {key : Scalar} {a : Item} {c : MethodDecl} :
    methodOf? key a = some c ↔ a = method c ∧ c.selfName = .scalar key := by
  cases a <;> simp only [methodOf?, reduceCtorEq, false_and]
  rw [Option.ite_none_right_eq_some, Value.scalar?_eq_some_iff, Option.some.injEq, method.injEq]
  exact ⟨fun ⟨h, e⟩ => ⟨e, e ▸ h⟩, fun ⟨e, h⟩ => ⟨e ▸ h, e⟩⟩

private theorem Selects.of_constructorOf {d : ConstructorDecl} {key : Scalar}
    (h : d.selfName = .scalar key) :
    Selects (constructorOf? key) (constructor d) d where
  self := constructorOf?_eq_some_iff.mpr ⟨rfl, h⟩
  typed a c hc ht := by
    obtain ⟨rfl, -⟩ := constructorOf?_eq_some_iff.mp hc
    exact ht
  agree a := by
    simp only [constructorOf?_eq_some_iff]
    cases a <;> simp [Agree, name, h]

private theorem Selects.of_methodOf {d : MethodDecl} {key : Scalar} (h : d.selfName = .scalar key) :
    Selects (methodOf? key) (method d) d where
  self := methodOf?_eq_some_iff.mpr ⟨rfl, h⟩
  typed a c hc ht := by
    obtain ⟨rfl, -⟩ := methodOf?_eq_some_iff.mp hc
    exact ht
  agree a := by
    simp only [methodOf?_eq_some_iff]
    cases a <;> simp [Agree, name, h]

/-- An item fits behind others if it agrees with them and its object is among them. -/
def Fits (earlier : List Item) (item : Item) : Prop :=
  (∀ a ∈ earlier, a.Agree item) ∧
    ∀ owner, item.owner? = some owner → ∃ d, object d ∈ earlier ∧ d.name = owner

end Item

namespace Interface

/-- An interface holds items if each of its tables tabulates the items of its kind, the members
under the objects that they name. -/
structure Holds (i : Interface) (items : List Item) : Prop where
  functions : Tabulates i.functions (items.filterMap Item.function?)
  records : Tabulates i.records (items.filterMap Item.record?)
  enums : Tabulates i.enums (items.filterMap Item.enum?)
  callbackInterfaces : Tabulates i.callbackInterfaces (items.filterMap Item.callbackInterface?)
  customTypes : Tabulates i.customTypes (items.filterMap Item.customType?)
  objects : Tabulates (Table.mapValues ObjectDefinition.declaration i.objects)
    (items.filterMap Item.object?)
  constructors : ∀ key o, Table.find? i.objects key = some o →
    Tabulates o.constructors (items.filterMap (Item.constructorOf? key))
  methods : ∀ key o, Table.find? i.objects key = some o →
    Tabulates o.methods (items.filterMap (Item.methodOf? key))
  owned : ∀ item ∈ items, ∀ owner, item.owner? = some owner →
    ∃ d, .object d ∈ items ∧ d.name = owner

variable {i i' : Interface} {done : List Item}

/-- The empty interface holds no items. -/
theorem holds_empty : empty.Holds [] where
  functions := Tabulates.nil
  records := Tabulates.nil
  enums := Tabulates.nil
  callbackInterfaces := Tabulates.nil
  customTypes := Tabulates.nil
  objects := Tabulates.nil
  constructors key o h := by cases h
  methods key o h := by cases h
  owned item h := by cases h

/-- What an interface holds does not depend on its names. -/
theorem Holds.setNames (h : i.Holds done) (name crate : Value) :
    Holds { i with namespaceName := name, crateName := crate } done :=
  ⟨h.functions, h.records, h.enums, h.callbackInterfaces, h.customTypes, h.objects, h.constructors,
    h.methods, h.owned⟩

/-- Typed items declare typed declarations. -/
theorem typed_filterMap {α : Type} [Declaration α] [TypedDeclaration α] {select : Item → Option α}
    (ht : ∀ item ∈ done, item.isTyped = true)
    (hs : ∀ a c, select a = some c → a.isTyped = true → TypedDeclaration.isTyped c = true) :
    ∀ c ∈ done.filterMap select, TypedDeclaration.isTyped c = true := by
  intro c hc
  obtain ⟨a, ha, hac⟩ := List.mem_filterMap.mp hc
  exact hs a c hac (ht a ha)

section Step

variable {α : Type} [Declaration α] [TypedDeclaration α] {select : Item → Option α} {item : Item}
  {d : α}

-- A declaration can be added to a table exactly if its item agrees with the earlier ones.
private theorem declare_isOk_iff_agree {t : Table α} (h : Tabulates t (done.filterMap select))
    (hs : Item.Selects select item d) (ht : ∀ item ∈ done, item.isTyped = true)
    (hi : item.isTyped = true) (label : String) :
    (∃ t', declare t (name d) d label = .ok t') ↔ ∀ a ∈ done, a.Agree item := by
  rw [h.declare_isOk_iff (typed_filterMap ht hs.typed) (hs.typed item d hs.self hi)]
  constructor
  · intro hall a ha
    exact (hs.agree a).mp fun c hc => hall c (List.mem_filterMap.mpr ⟨a, ha, hc⟩)
  · intro hall c hc
    obtain ⟨a, ha, hac⟩ := List.mem_filterMap.mp hc
    exact (hs.agree a).mpr (hall a ha) c hac

private theorem declare_snoc {t t' : Table α} (h : Tabulates t (done.filterMap select))
    (hs : Item.Selects select item d) (ht : ∀ item ∈ done, item.isTyped = true)
    (hi : item.isTyped = true) {label : String} (h' : declare t (name d) d label = .ok t') :
    Tabulates t' ((done ++ [item]).filterMap select) := by
  rw [List.filterMap_append, List.filterMap_cons_some hs.self, List.filterMap_nil]
  exact h.declare (typed_filterMap ht hs.typed) (hs.typed item d hs.self hi) h'

omit [TypedDeclaration α] in
private theorem keep_snoc [TypedDeclaration α] {t : Table α}
    (h : Tabulates t (done.filterMap select)) (hs : select item = none) :
    Tabulates t ((done ++ [item]).filterMap select) := by
  rw [List.filterMap_append, List.filterMap_cons_none hs, List.filterMap_nil, List.append_nil]
  exact h

private theorem fits_iff_agree (howner : item.owner? = none) :
    item.Fits done ↔ ∀ a ∈ done, a.Agree item :=
  ⟨fun h => h.1, fun h => ⟨h, fun v hv => by rw [howner] at hv; cases hv⟩⟩

end Step

private theorem Holds.find?_object_iff (h : i.Holds done) (s : String) :
    (∃ o, Table.find? i.objects (.text s) = some o) ↔ ∃ d, .object d ∈ done ∧ d.name = .text s := by
  have hhas := h.objects.has_iff (.text s)
  rw [Table.has, Table.find?_mapValues, Option.isSome_map, Option.isSome_iff_exists] at hhas
  rw [hhas]
  constructor
  · rintro ⟨d, hd, hname⟩
    obtain ⟨item, hitem, hs⟩ := List.mem_filterMap.mp hd
    cases item <;> simp only [Item.object?, Option.some.injEq, reduceCtorEq] at hs
    subst hs
    exact ⟨_, hitem, hname⟩
  · rintro ⟨d, hd, hname⟩
    exact ⟨d, List.mem_filterMap.mpr ⟨_, hd, rfl⟩, hname⟩

private theorem Holds.find?_owner (h : i.Holds done) {item : Item} (hf : item.Fits done)
    {s : String}
    (howner : item.owner? = some (.text s)) : ∃ o, Table.find? i.objects (.text s) = some o :=
  (h.find?_object_iff s).mpr (hf.2 _ howner)

private theorem owner_known {s : String} {o : ObjectDefinition}
    (ho : Table.find? i.objects (.text s) = some o) (member : String) :
    i.owner (.text s) member = .ok (.text s, o) := by
  rw [owner, orFault_asKey, ok_bind, ho]
  rfl

private theorem owner_unknown {s : String} (ho : Table.find? i.objects (.text s) = none)
    (member : String) : ∃ e, i.owner (.text s) member = .error e := by
  refine ⟨.unknownObject member s, ?_⟩
  rw [owner, orFault_asKey, ok_bind, ho]
  rfl

private theorem find?_of_owner {s member : String} {key : Scalar} {o : ObjectDefinition}
    (h : i.owner (.text s) member = .ok (key, o)) :
    key = .text s ∧ Table.find? i.objects (.text s) = some o := by
  cases ho : Table.find? i.objects (.text s) with
  | none =>
    obtain ⟨e, he⟩ := owner_unknown ho member
    rw [he] at h
    cases h
  | some p =>
    rw [owner_known ho] at h
    cases h
    exact ⟨rfl, rfl⟩

private theorem declareObject_new {t : Table ObjectDefinition} {d : ObjectDecl} {s : String}
    (hname : d.name = .text s) (ho : t.find? (.text s) = none) :
    declareObject t d = .ok (t.put (.text s) ⟨d, [], []⟩) := by
  rw [declareObject, hname, orFault_asKey, ok_bind, ho]
  rfl

private theorem declareObject_known {t : Table ObjectDefinition} {d : ObjectDecl} {s : String}
    {o : ObjectDefinition} (hname : d.name = .text s) (ho : t.find? (.text s) = some o) :
    declareObject t d =
      match merge? o.declaration d with
      | some m => .ok (t.put (.text s) { o with declaration := m })
      | none => .error (.conflicting ("object " ++ s)) := by
  rw [declareObject, hname, orFault_asKey, ok_bind, ho]
  rfl

-- The declarations of objects are tabulated as those of any other kind.
private theorem map_declareObject {d : ObjectDecl} {s : String} (hname : d.name = .text s)
    (t : Table ObjectDefinition) :
    (declareObject t d).map (Table.mapValues ObjectDefinition.declaration) =
      declare (Table.mapValues ObjectDefinition.declaration t) d.name d "object " := by
  have hfind := Table.find?_mapValues ObjectDefinition.declaration t (.text s)
  cases ho : t.find? (.text s) with
  | none =>
    rw [ho] at hfind
    rw [declareObject_new hname ho, hname, declare_new hfind]
    exact congrArg Except.ok
      (Table.mapValues_put ObjectDefinition.declaration t (.text s) ⟨d, [], []⟩)
  | some o =>
    rw [ho] at hfind
    rw [declareObject_known hname ho, hname, declare_known hfind]
    cases merge? o.declaration d with
    | none => rfl
    | some m =>
      exact congrArg Except.ok
        (Table.mapValues_put ObjectDefinition.declaration t (.text s) { o with declaration := m })

-- Declaring an object leaves the members of all objects as they are.
private theorem members_declareObject {t t' : Table ObjectDefinition} {d : ObjectDecl} {s : String}
    (hname : d.name = .text s) (h : declareObject t d = .ok t') {key : Scalar}
    {o' : ObjectDefinition} (ho' : t'.find? key = some o') :
    (∃ o, t.find? key = some o ∧ o'.constructors = o.constructors ∧ o'.methods = o.methods) ∨
      (t.find? key = none ∧ o'.constructors = [] ∧ o'.methods = []) := by
  cases ho : t.find? (.text s) with
  | none =>
    rw [declareObject_new hname ho] at h
    obtain rfl := Except.ok.inj h
    rw [Table.find?_put] at ho'
    split at ho'
    · next hk =>
      obtain rfl := Option.some.inj ho'
      exact Or.inr ⟨by rw [← Table.find?_congr hk, ho], rfl, rfl⟩
    · exact Or.inl ⟨o', ho', rfl, rfl⟩
  | some o =>
    rw [declareObject_known hname ho] at h
    cases hm : merge? o.declaration d with
    | none =>
      rw [hm] at h
      cases h
    | some m =>
      rw [hm] at h
      obtain rfl := Except.ok.inj h
      rw [Table.find?_put] at ho'
      split at ho'
      · next hk =>
        obtain rfl := Option.some.inj ho'
        exact Or.inl ⟨o, by rw [← Table.find?_congr hk, ho], rfl, rfl⟩
      · exact Or.inl ⟨o', ho', rfl, rfl⟩

-- No member of an object comes before the object.
private theorem filterMap_eq_nil_of_unknown {α : Type} (h : i.Holds done)
    (ht : ∀ item ∈ done, item.isTyped = true) {select : Item → Option α} {key : Scalar}
    (hs : ∀ a c, select a = some c → ∃ v, a.owner? = some v ∧ v.scalar? = some key)
    (hkey : Table.find? i.objects key = none) : done.filterMap select = [] := by
  rw [List.eq_nil_iff_forall_not_mem]
  intro c hc
  obtain ⟨a, ha, hac⟩ := List.mem_filterMap.mp hc
  obtain ⟨v, hv, hvkey⟩ := hs a c hac
  -- The object of every member is among the items, so its name would be known.
  obtain ⟨d, hd, hname⟩ := h.owned a ha v hv
  have htyped : isTyped d = true := ht _ hd
  obtain ⟨s, hs⟩ := Value.isText_iff.mp (isText_name htyped)
  have hs : d.name = .text s := hs
  obtain ⟨o, ho⟩ := (h.find?_object_iff s).mpr ⟨d, hd, hs⟩
  rw [← hname, hs] at hvkey
  obtain rfl : .text s = key := Option.some.inj hvkey
  rw [ho] at hkey
  cases hkey

-- Writing an object under its name leaves the members of the others as they are.
private theorem members_put {α : Type} [Declaration α] [TypedDeclaration α]
    {select : Scalar → Item → Option α} {members : ObjectDefinition → Table α} {item : Item}
    {s : String} {o : ObjectDefinition}
    (h : ∀ key p, Table.find? i.objects key = some p →
      Tabulates (members p) (done.filterMap (select key)))
    (hnew : Tabulates (members o) ((done ++ [item]).filterMap (select (.text s))))
    (hother : ∀ key, key ≠ .text s → select key item = none) :
    ∀ key p, Table.find? (Table.put i.objects (.text s) o) key = some p →
      Tabulates (members p) ((done ++ [item]).filterMap (select key)) := by
  intro key p hp
  rw [Table.find?_put] at hp
  split at hp
  · next hk =>
    obtain rfl := Option.some.inj hp
    rw [Scalar.eq_text_of_same (Scalar.same_symm hk)]
    exact hnew
  · next hk =>
    have hne : key ≠ .text s := by
      rintro rfl
      exact hk (Scalar.same_refl _)
    exact keep_snoc (h key p hp) (hother key hne)

-- An object that gets a member keeps its declaration.
private theorem mapValues_objects_put {key : Scalar} {o o' : ObjectDefinition}
    (ho : Table.find? i.objects key = some o) (hdecl : o'.declaration = o.declaration) :
    Table.mapValues ObjectDefinition.declaration (Table.put i.objects key o') =
      Table.mapValues ObjectDefinition.declaration i.objects := by
  have hfind : Table.find? (Table.mapValues ObjectDefinition.declaration i.objects) key =
      some o.declaration := by
    rw [Table.find?_mapValues, ho]
    rfl
  rw [Table.mapValues_put, hdecl, Table.put_of_find?_some hfind]

private theorem addConstructor_known {d : ConstructorDecl} {s : String} {o : ObjectDefinition}
    (hself : d.selfName = .text s) (ho : Table.find? i.objects (.text s) = some o) :
    ∃ label, i.addItem (.constructor d) = (do
      let t ← declare o.constructors d.name d label
      return { i with objects := Table.put i.objects (.text s) { o with constructors := t } }) := by
  refine ⟨"constructor " ++ d.selfName.display ++ ".", ?_⟩
  rw [addItem, hself, owner_known ho]
  rfl

private theorem addMethod_known {d : MethodDecl} {s : String} {o : ObjectDefinition}
    (hself : d.selfName = .text s) (ho : Table.find? i.objects (.text s) = some o) :
    ∃ label, i.addItem (.method d) = (do
      let t ← declare o.methods d.name d label
      return { i with objects := Table.put i.objects (.text s) { o with methods := t } }) := by
  refine ⟨"method " ++ d.selfName.display ++ ".", ?_⟩
  rw [addItem, hself, owner_known ho]
  rfl

-- A member can be added exactly if its object is known and it agrees with the earlier ones.
private theorem addMember_isOk_iff {α : Type} [Declaration α] [TypedDeclaration α]
    {select : Item → Option α} {item : Item} {d : α} {s : String} (h : i.Holds done)
    (hs : Item.Selects select item d) (ht : ∀ item ∈ done, item.isTyped = true)
    (hi : item.isTyped = true) (howner : item.owner? = some (.text s))
    {members : ObjectDefinition → Table α} {f : ObjectDefinition → Table α → Interface}
    (htab : ∀ o, Table.find? i.objects (.text s) = some o →
      Tabulates (members o) (done.filterMap select))
    (hknown : ∀ o, Table.find? i.objects (.text s) = some o →
      ∃ label, i.addItem item = (do return f o (← declare (members o) (name d) d label)))
    (hunknown : Table.find? i.objects (.text s) = none → ∃ e, i.addItem item = .error e) :
    (∃ i', i.addItem item = .ok i') ↔ item.Fits done := by
  cases ho : Table.find? i.objects (.text s) with
  | none =>
    obtain ⟨e, he⟩ := hunknown ho
    constructor
    · rintro ⟨i', hi'⟩
      rw [he] at hi'
      cases hi'
    · intro hf
      obtain ⟨p, hp⟩ := h.find?_owner hf howner
      rw [hp] at ho
      cases ho
  | some o =>
    obtain ⟨label, hl⟩ := hknown o ho
    rw [hl, isOk_map_iff, declare_isOk_iff_agree (htab o ho) hs ht hi]
    refine ⟨fun ha => ⟨ha, fun v hv => ?_⟩, fun hf => hf.1⟩
    obtain rfl := Option.some.inj (howner.symm.trans hv)
    exact (h.find?_object_iff s).mp ⟨o, ho⟩

private theorem addConstructor_unknown {d : ConstructorDecl} {s : String}
    (hself : d.selfName = .text s) (ho : Table.find? i.objects (.text s) = none) :
    ∃ e, i.addItem (.constructor d) = .error e := by
  obtain ⟨e, he⟩ := owner_unknown ho ("constructor " ++ d.name.display)
  exact ⟨e, by rw [addItem, hself, he]; rfl⟩

private theorem addMethod_unknown {d : MethodDecl} {s : String}
    (hself : d.selfName = .text s) (ho : Table.find? i.objects (.text s) = none) :
    ∃ e, i.addItem (.method d) = .error e := by
  obtain ⟨e, he⟩ := owner_unknown ho ("method " ++ d.name.display)
  exact ⟨e, by rw [addItem, hself, he]; rfl⟩

private theorem selfName_constructor {d : ConstructorDecl}
    (h : (Item.constructor d).isTyped = true) :
    ∃ s, d.selfName = .text s := by
  simp only [Item.isTyped, ConstructorDecl.isTyped, Bool.and_eq_true] at h
  exact Value.isText_iff.mp h.1.1.1.2

private theorem selfName_method {d : MethodDecl} (h : (Item.method d).isTyped = true) :
    ∃ s, d.selfName = .text s := by
  simp only [Item.isTyped, MethodDecl.isTyped, Bool.and_eq_true] at h
  exact Value.isText_iff.mp h.1.1.1.1.1.2

private theorem name_object {d : ObjectDecl} (h : (Item.object d).isTyped = true) :
    ∃ s, d.name = .text s := by
  simp only [Item.isTyped, ObjectDecl.isTyped, Bool.and_eq_true] at h
  exact Value.isText_iff.mp h.1.2

/-- An item can be added exactly if it fits behind those that the interface holds. -/
theorem Holds.addItem_isOk_iff (h : i.Holds done) (ht : ∀ a ∈ done, a.isTyped = true) {item : Item}
    (hi : item.isTyped = true) : (∃ i', i.addItem item = .ok i') ↔ item.Fits done := by
  cases item with
  | namespaceDecl d =>
    rw [fits_iff_agree rfl]
    exact ⟨fun _ a _ => by cases a <;> trivial, fun _ => ⟨i, rfl⟩⟩
  | udlFile d =>
    rw [fits_iff_agree rfl]
    exact ⟨fun _ a _ => by cases a <;> trivial, fun _ => ⟨i, rfl⟩⟩
  | function d =>
    rw [fits_iff_agree rfl, ← declare_isOk_iff_agree h.functions (.of_function d) ht hi]
    exact isOk_map_iff
  | record d =>
    rw [fits_iff_agree rfl, ← declare_isOk_iff_agree h.records (.of_record d) ht hi]
    exact isOk_map_iff
  | enum d =>
    rw [fits_iff_agree rfl, ← declare_isOk_iff_agree h.enums (.of_enum d) ht hi]
    exact isOk_map_iff
  | callbackInterface d =>
    rw [fits_iff_agree rfl,
      ← declare_isOk_iff_agree h.callbackInterfaces (.of_callbackInterface d) ht hi]
    exact isOk_map_iff
  | customType d =>
    rw [fits_iff_agree rfl, ← declare_isOk_iff_agree h.customTypes (.of_customType d) ht hi]
    exact isOk_map_iff
  | object d =>
    obtain ⟨s, hname⟩ := name_object hi
    rw [fits_iff_agree rfl,
      ← declare_isOk_iff_agree h.objects (.of_object d) ht hi "object "]
    refine isOk_map_iff.trans ?_
    have hmap := map_declareObject hname i.objects
    change _ ↔ ∃ t', declare _ d.name d "object " = .ok t'
    rw [← hmap]
    cases declareObject i.objects d <;> simp [Except.map]
  | constructor d =>
    obtain ⟨s, hself⟩ := selfName_constructor hi
    exact addMember_isOk_iff h (.of_constructorOf hself) ht hi (congrArg some hself)
      (h.constructors _) (fun o ho => addConstructor_known hself ho) (addConstructor_unknown hself)
  | method d =>
    obtain ⟨s, hself⟩ := selfName_method hi
    exact addMember_isOk_iff h (.of_methodOf hself) ht hi (congrArg some hself)
      (h.methods _) (fun o ho => addMethod_known hself ho) (addMethod_unknown hself)

private theorem owned_snoc (h : i.Holds done) {item : Item} (hf : item.Fits done) :
    ∀ a ∈ done ++ [item], ∀ owner, a.owner? = some owner →
      ∃ d, .object d ∈ done ++ [item] ∧ d.name = owner := by
  intro a ha owner hown
  rcases List.mem_append.mp ha with ha | ha
  · obtain ⟨d, hd, hname⟩ := h.owned a ha owner hown
    exact ⟨d, List.mem_append_left _ hd, hname⟩
  · rw [List.mem_singleton.mp ha] at hown
    obtain ⟨d, hd, hname⟩ := hf.2 owner hown
    exact ⟨d, List.mem_append_left _ hd, hname⟩

/-- What adding an item does: nothing, a declaration in one of the tables, or one among the members
of an object. -/
inductive Adds (i : Interface) : Item → Interface → Prop where
  | namespaceDecl (d : NamespaceDecl) : Adds i (.namespaceDecl d) i
  | udlFile (d : UdlFileDecl) : Adds i (.udlFile d) i
  | function {d : FunctionDecl} {t : Table FunctionDecl}
    (h : declare i.functions d.name d "function " = .ok t) :
    Adds i (.function d) { i with functions := t }
  | record {d : RecordDecl} {t : Table RecordDecl}
    (h : declare i.records d.name d "record " = .ok t) : Adds i (.record d) { i with records := t }
  | enum {d : EnumDecl} {t : Table EnumDecl} (h : declare i.enums d.name d "enum " = .ok t) :
    Adds i (.enum d) { i with enums := t }
  | callbackInterface {d : CallbackInterfaceDecl} {t : Table CallbackInterfaceDecl}
    (h : declare i.callbackInterfaces d.name d "callback interface " = .ok t) :
    Adds i (.callbackInterface d) { i with callbackInterfaces := t }
  | customType {d : CustomTypeDecl} {t : Table CustomTypeDecl}
    (h : declare i.customTypes d.name d "custom type " = .ok t) :
    Adds i (.customType d) { i with customTypes := t }
  | object {d : ObjectDecl} {t : Table ObjectDefinition} (h : declareObject i.objects d = .ok t) :
    Adds i (.object d) { i with objects := t }
  | constructor {d : ConstructorDecl} {key : Scalar} {o : ObjectDefinition}
    {t : Table ConstructorDecl} {member label : String}
    (ho : i.owner d.selfName member = .ok (key, o))
    (h : declare o.constructors d.name d label = .ok t) :
    Adds i (.constructor d) { i with objects := i.objects.put key { o with constructors := t } }
  | method {d : MethodDecl} {key : Scalar} {o : ObjectDefinition} {t : Table MethodDecl}
    {member label : String} (ho : i.owner d.selfName member = .ok (key, o))
    (h : declare o.methods d.name d label = .ok t) :
    Adds i (.method d) { i with objects := i.objects.put key { o with methods := t } }

variable {item : Item}

/-- An item that is added without a conflict is there afterwards, and nothing else has changed. -/
theorem adds_of_addItem (h : i.addItem item = .ok i') : i.Adds item i' := by
  cases item with
  | namespaceDecl d =>
    obtain rfl := Except.ok.inj h
    exact .namespaceDecl d
  | udlFile d =>
    obtain rfl := Except.ok.inj h
    exact .udlFile d
  | function d =>
    obtain ⟨t, ht, rfl⟩ := exists_of_map_eq_ok h
    exact .function ht
  | record d =>
    obtain ⟨t, ht, rfl⟩ := exists_of_map_eq_ok h
    exact .record ht
  | enum d =>
    obtain ⟨t, ht, rfl⟩ := exists_of_map_eq_ok h
    exact .enum ht
  | callbackInterface d =>
    obtain ⟨t, ht, rfl⟩ := exists_of_map_eq_ok h
    exact .callbackInterface ht
  | customType d =>
    obtain ⟨t, ht, rfl⟩ := exists_of_map_eq_ok h
    exact .customType ht
  | object d =>
    obtain ⟨t, ht, rfl⟩ := exists_of_map_eq_ok h
    exact .object ht
  | constructor d =>
    obtain ⟨⟨key, o⟩, ho, h⟩ := exists_of_bind_eq_ok h
    obtain ⟨t, ht, rfl⟩ := exists_of_map_eq_ok h
    exact .constructor ho ht
  | method d =>
    obtain ⟨⟨key, o⟩, ho, h⟩ := exists_of_bind_eq_ok h
    obtain ⟨t, ht, rfl⟩ := exists_of_map_eq_ok h
    exact .method ho ht

/-- Adding an item does not change the names of an interface. -/
theorem names_addItem (h : i.addItem item = .ok i') :
    i'.namespaceName = i.namespaceName ∧ i'.crateName = i.crateName := by
  cases adds_of_addItem h <;> exact ⟨rfl, rfl⟩

-- A table of one kind after an item: as before if the item is of another kind, and else with what
-- the item declares.
private def Grows {α : Type} [Declaration α] [TypedDeclaration α] (select : Item → Option α)
    (item : Item) (t t' : Table α) : Prop :=
  (select item = none ∧ t' = t) ∨
    ∃ d label, Item.Selects select item d ∧ declare t (name d) d label = .ok t'

private theorem Grows.tabulates {α : Type} [Declaration α] [TypedDeclaration α]
    {select : Item → Option α} {t t' : Table α} (hg : Grows select item t t')
    (h : Tabulates t (done.filterMap select)) (ht : ∀ a ∈ done, a.isTyped = true)
    (hi : item.isTyped = true) : Tabulates t' ((done ++ [item]).filterMap select) := by
  rcases hg with ⟨hnone, rfl⟩ | ⟨d, label, hs, ht'⟩
  · exact keep_snoc h hnone
  · exact declare_snoc h hs ht hi ht'

namespace Adds

variable (h : i.Adds item i')
include h

private theorem functions : Grows Item.function? item i.functions i'.functions := by
  cases h with
  | function h => exact Or.inr ⟨_, _, .of_function _, h⟩
  | _ => exact Or.inl ⟨rfl, rfl⟩

private theorem records : Grows Item.record? item i.records i'.records := by
  cases h with
  | record h => exact Or.inr ⟨_, _, .of_record _, h⟩
  | _ => exact Or.inl ⟨rfl, rfl⟩

private theorem enums : Grows Item.enum? item i.enums i'.enums := by
  cases h with
  | enum h => exact Or.inr ⟨_, _, .of_enum _, h⟩
  | _ => exact Or.inl ⟨rfl, rfl⟩

private theorem callbackInterfaces :
    Grows Item.callbackInterface? item i.callbackInterfaces i'.callbackInterfaces := by
  cases h with
  | callbackInterface h => exact Or.inr ⟨_, _, .of_callbackInterface _, h⟩
  | _ => exact Or.inl ⟨rfl, rfl⟩

private theorem customTypes : Grows Item.customType? item i.customTypes i'.customTypes := by
  cases h with
  | customType h => exact Or.inr ⟨_, _, .of_customType _, h⟩
  | _ => exact Or.inl ⟨rfl, rfl⟩

private theorem objects (hi : item.isTyped = true) :
    Grows Item.object? item (Table.mapValues ObjectDefinition.declaration i.objects)
      (Table.mapValues ObjectDefinition.declaration i'.objects) := by
  cases h with
  | object h =>
    obtain ⟨s, hname⟩ := name_object hi
    have hmap := map_declareObject hname i.objects
    rw [h] at hmap
    exact Or.inr ⟨_, _, .of_object _, hmap.symm⟩
  | constructor ho _ =>
    obtain ⟨s, hself⟩ := selfName_constructor hi
    rw [hself] at ho
    obtain ⟨rfl, hfind⟩ := find?_of_owner ho
    exact Or.inl ⟨rfl, mapValues_objects_put hfind rfl⟩
  | method ho _ =>
    obtain ⟨s, hself⟩ := selfName_method hi
    rw [hself] at ho
    obtain ⟨rfl, hfind⟩ := find?_of_owner ho
    exact Or.inl ⟨rfl, mapValues_objects_put hfind rfl⟩
  | _ => exact Or.inl ⟨rfl, rfl⟩

end Adds

-- The constructors of each object after an item.
private theorem Holds.constructors_adds (h : i.Holds done) (ht : ∀ a ∈ done, a.isTyped = true)
    (hi : item.isTyped = true) (hadds : i.Adds item i') (key : Scalar) (o : ObjectDefinition)
    (ho : Table.find? i'.objects key = some o) :
    Tabulates o.constructors ((done ++ [item]).filterMap (Item.constructorOf? key)) := by
  cases hadds with
  | @object d t ht' =>
    obtain ⟨s, hname⟩ := name_object hi
    refine keep_snoc ?_ rfl
    rcases members_declareObject hname ht' ho with ⟨p, hp, hc, -⟩ | ⟨hnone, hc, -⟩
    · rw [hc]
      exact h.constructors key p hp
    · rw [hc, filterMap_eq_nil_of_unknown h ht ?_ hnone]
      · exact Tabulates.nil
      · intro a c hac
        obtain ⟨rfl, hself⟩ := Item.constructorOf?_eq_some_iff.mp hac
        exact ⟨_, rfl, by rw [hself]; rfl⟩
  | @constructor d _ p t _ _ howner ht' =>
    obtain ⟨s, hself⟩ := selfName_constructor hi
    rw [hself] at howner
    obtain ⟨rfl, hp⟩ := find?_of_owner howner
    refine members_put h.constructors
      (declare_snoc (h.constructors _ p hp) (.of_constructorOf hself) ht hi ht') ?_ key o ho
    intro other hne
    rw [Item.constructorOf?, hself]
    exact if_neg fun he => hne (Option.some.inj he).symm
  | @method d _ p _ _ _ howner _ =>
    obtain ⟨s, hself⟩ := selfName_method hi
    rw [hself] at howner
    obtain ⟨rfl, hp⟩ := find?_of_owner howner
    refine members_put h.constructors ?_ (fun _ _ => rfl) key o ho
    exact keep_snoc (h.constructors _ p hp) rfl
  | _ => exact keep_snoc (h.constructors key o ho) rfl

-- The methods of each object after an item.
private theorem Holds.methods_adds (h : i.Holds done) (ht : ∀ a ∈ done, a.isTyped = true)
    (hi : item.isTyped = true) (hadds : i.Adds item i') (key : Scalar) (o : ObjectDefinition)
    (ho : Table.find? i'.objects key = some o) :
    Tabulates o.methods ((done ++ [item]).filterMap (Item.methodOf? key)) := by
  cases hadds with
  | @object d t ht' =>
    obtain ⟨s, hname⟩ := name_object hi
    refine keep_snoc ?_ rfl
    rcases members_declareObject hname ht' ho with ⟨p, hp, -, hm⟩ | ⟨hnone, -, hm⟩
    · rw [hm]
      exact h.methods key p hp
    · rw [hm, filterMap_eq_nil_of_unknown h ht ?_ hnone]
      · exact Tabulates.nil
      · intro a c hac
        obtain ⟨rfl, hself⟩ := Item.methodOf?_eq_some_iff.mp hac
        exact ⟨_, rfl, by rw [hself]; rfl⟩
  | @constructor d _ p _ _ _ howner _ =>
    obtain ⟨s, hself⟩ := selfName_constructor hi
    rw [hself] at howner
    obtain ⟨rfl, hp⟩ := find?_of_owner howner
    refine members_put h.methods ?_ (fun _ _ => rfl) key o ho
    exact keep_snoc (h.methods _ p hp) rfl
  | @method d _ p t _ _ howner ht' =>
    obtain ⟨s, hself⟩ := selfName_method hi
    rw [hself] at howner
    obtain ⟨rfl, hp⟩ := find?_of_owner howner
    refine members_put h.methods
      (declare_snoc (h.methods _ p hp) (.of_methodOf hself) ht hi ht') ?_ key o ho
    intro other hne
    rw [Item.methodOf?, hself]
    exact if_neg fun he => hne (Option.some.inj he).symm
  | _ => exact keep_snoc (h.methods key o ho) rfl

/-- An interface to which an item has been added holds that item too. -/
theorem Holds.addItem (h : i.Holds done) (ht : ∀ a ∈ done, a.isTyped = true)
    (hi : item.isTyped = true) (hadd : i.addItem item = .ok i') : i'.Holds (done ++ [item]) := by
  have hf := (h.addItem_isOk_iff ht hi).mp ⟨i', hadd⟩
  have hadds := adds_of_addItem hadd
  exact {
    functions := hadds.functions.tabulates h.functions ht hi
    records := hadds.records.tabulates h.records ht hi
    enums := hadds.enums.tabulates h.enums ht hi
    callbackInterfaces := hadds.callbackInterfaces.tabulates h.callbackInterfaces ht hi
    customTypes := hadds.customTypes.tabulates h.customTypes ht hi
    objects := (hadds.objects hi).tabulates h.objects ht hi
    constructors := h.constructors_adds ht hi hadds
    methods := h.methods_adds ht hi hadds
    owned := owned_snoc h hf }

end Interface
end BindGen

import BindGen.Interface.Content
import BindGen.Proofs.Interface.Filed
import BindGen.Proofs.Metadata.TypedPayload

/-!
# What the canonical text tells

The canonical text of an interface is the JSON text of its content. It tells the whole surface, and
nothing else: interfaces of typed groups have one text exactly if they have the same names and find
the same declarations, however they were folded. The text is read back with all tables in order, so
that declarations are found in it as they are found in the interface.
-/

namespace BindGen

open Json (IsJson)

/-! ## Tables of declarations -/

namespace Value

/-- Tables that are sorted and then put in order tell what is found under each key. -/
theorem find?_eq_of_inOrder {α : Type} {f : α → Value} {t t' : Table α} (hd : t.Distinct)
    (hk : t.Worded) (hd' : t'.Distinct) (hk' : t'.Worded)
    (h : (table (Table.mapValues f (sortOn Prod.fst t))).inOrder =
      (table (Table.mapValues f (sortOn Prod.fst t'))).inOrder) (key : Scalar) :
    (Table.find? t key).map (fun a => (f a).inOrder) =
      (Table.find? t' key).map fun a => (f a).inOrder := by
  have hfound {t : Table α} (hd : t.Distinct) (hk : t.Worded) :
      Table.find? (sortOn Prod.fst (Table.mapValues inOrder
        (Table.mapValues f (sortOn Prod.fst t)))) key =
        (Table.find? t key).map fun a => (f a).inOrder := by
    have hp := sortOn_perm hk
    have hd' := hd.perm hp.symm
    have hk' : Table.Worded (sortOn Prod.fst t) := fun e he => hk e (hp.mem_iff.mp he)
    rw [find?_inOrder (hd'.mapValues f) (hk'.mapValues f), Table.find?_mapValues, Option.map_map,
      Table.find?_perm hd' hp]
    rfl
  rw [inOrder_table, inOrder_table, table.injEq] at h
  rw [← hfound hd hk, ← hfound hd' hk', h]

/-- What two tables have under a key is one value in order if the tables are. -/
theorem inOrder_eq_of_find? {entries entries' : Table Value} (hd : entries.Distinct)
    (hk : entries.Worded) (hd' : entries'.Distinct) (hk' : entries'.Worded)
    (h : (table entries).inOrder = (table entries').inOrder) (key : String) {v v' : Value}
    (hv : Table.find? entries key = some v) (hv' : Table.find? entries' key = some v') :
    v.inOrder = v'.inOrder := by
  have hpart := part_inOrder hd hk hv
  rw [h, part_inOrder hd' hk' hv'] at hpart
  exact (Except.ok.inj hpart).symm

end Value

namespace Table

variable {α : Type} [Declaration α] [TypedDeclaration α] {t t' : Table α}

/-- The fields of all declarations of a table, in the order of their names. -/
def view (t : Table α) : Value :=
  .table (mapValues (fun d => .table (Declaration.fields d)) (sortOn Prod.fst t))

namespace Filed

private theorem dump_eq_view (h : Filed t) : Interface.dump t = .ok t.view := by
  rw [Interface.dump, Interface.sorted, sortByKey_of_words h.textKeyed.worded]
  rfl

private theorem isJson_view [ItemDeclaration α] (h : Filed t) : IsJson 6 t.view := by
  have hp := sortOn_perm h.textKeyed.worded
  refine .table ((h.distinct.perm hp.symm).mapValues _)
    (Worded.mapValues (fun e he => h.textKeyed.worded e (hp.mem_iff.mp he)) _) fun e he => ?_
  obtain ⟨x, hx, rfl⟩ := List.mem_map.mp he
  exact Declaration.isJson_fields (h.typed x (hp.mem_iff.mp hx))

/-- Tables with the same declarations have one view. -/
theorem view_eq (h : Filed t) (h' : Filed t') (hf : ∀ key, find? t key = find? t' key) :
    t.view = t'.view := by
  rw [view, view, sortOn_eq_of_find? h.distinct h'.distinct h.textKeyed.worded
    h'.textKeyed.worded hf]

/-- The view of a table tells the declarations in it. -/
theorem find?_eq_of_view [ItemDeclaration α] (h : Filed t) (h' : Filed t')
    (hv : t.view.inOrder = t'.view.inOrder) (key : Scalar) : find? t key = find? t' key := by
  have hsame := Value.find?_eq_of_inOrder h.distinct h.textKeyed.worded h'.distinct
    h'.textKeyed.worded hv key
  cases hf : find? t key with
  | none =>
    rw [hf, Option.map_none, eq_comm, Option.map_eq_none_iff] at hsame
    exact hsame.symm
  | some d =>
    rw [hf, Option.map_some, eq_comm, Option.map_eq_some_iff] at hsame
    obtain ⟨d', hf', hfields⟩ := hsame
    rw [hf', Declaration.eq_of_fields (h'.typed_of_find? hf') (h.typed_of_find? hf) hfields]

end Filed

end Table

/-! ## Objects -/

namespace ObjectDefinition

variable {o o' : ObjectDefinition}

/-- Two objects have one declaration and the same members, in whatever order these came. -/
structure SameSurface (o o' : ObjectDefinition) : Prop where
  declaration : o.declaration = o'.declaration
  constructors : ∀ name, Table.find? o.constructors name = Table.find? o'.constructors name
  methods : ∀ name, Table.find? o.methods name = Table.find? o'.methods name

/-- The content of an object. -/
def view (o : ObjectDefinition) : Value :=
  .table [("declaration", .table (Declaration.fields o.declaration)),
    ("constructors", o.constructors.view), ("methods", o.methods.view)]

/-- An object files typed members under their names. -/
structure WellFiled (o : ObjectDefinition) : Prop where
  declaration : o.declaration.isTyped = true
  constructors : o.constructors.Filed
  methods : o.methods.Filed

private theorem keys_view (d c m : Value) :
    Table.Distinct [(("declaration" : Scalar), d), ("constructors", c), ("methods", m)] ∧
      Table.Worded [(("declaration" : Scalar), d), ("constructors", c), ("methods", m)] := by
  simp [Table.Distinct, Table.Worded]

private theorem WellFiled.dumpObject_eq_view (h : o.WellFiled) :
    Interface.dumpObject o = .ok o.view := by
  rw [Interface.dumpObject, h.constructors.dump_eq_view, h.methods.dump_eq_view]
  rfl

private theorem WellFiled.isJson_view (h : o.WellFiled) : IsJson 7 o.view := by
  obtain ⟨hd, hk⟩ := keys_view (.table (Declaration.fields o.declaration)) o.constructors.view
    o.methods.view
  have hdeclaration : IsJson 6 (.table (Declaration.fields o.declaration)) :=
    (Declaration.isJson_fields h.declaration).mono (by decide)
  refine .table hd hk ?_
  simpa using ⟨hdeclaration, h.constructors.isJson_view, h.methods.isJson_view⟩

/-- Objects of one surface have one view. -/
theorem WellFiled.view_eq (h : o.WellFiled) (h' : o'.WellFiled) (hs : o.SameSurface o') :
    o.view = o'.view := by
  rw [view, view, hs.declaration, h.constructors.view_eq h'.constructors hs.constructors,
    h.methods.view_eq h'.methods hs.methods]

/-- The view of an object tells its surface. -/
theorem WellFiled.sameSurface_of_view (h : o.WellFiled) (h' : o'.WellFiled)
    (hv : o.view.inOrder = o'.view.inOrder) : o.SameSurface o' := by
  obtain ⟨hd, hk⟩ := keys_view (.table (Declaration.fields o.declaration)) o.constructors.view
    o.methods.view
  obtain ⟨hd', hk'⟩ := keys_view (.table (Declaration.fields o'.declaration)) o'.constructors.view
    o'.methods.view
  have hpart (key : String) {v v' : Value} :
      Table.find? _ key = some v → Table.find? _ key = some v' → v.inOrder = v'.inOrder :=
    Value.inOrder_eq_of_find? hd hk hd' hk' hv key
  exact ⟨Declaration.eq_of_fields h.declaration h'.declaration (hpart "declaration" rfl rfl),
    h.constructors.find?_eq_of_view h'.constructors (hpart "constructors" rfl rfl),
    h.methods.find?_eq_of_view h'.methods (hpart "methods" rfl rfl)⟩

end ObjectDefinition

namespace Interface

variable {i i' : Interface}

namespace FiledObjects

variable {t t' : Table ObjectDefinition}

/-- Each object of a filing table files its own members. -/
theorem wellFiled (h : FiledObjects t) : ∀ e ∈ t, e.2.WellFiled := fun e he =>
  ⟨h.declarations.typed (e.1, e.2.declaration) (List.mem_map_of_mem he), h.constructors e he,
    h.methods e he⟩

/-- An object found in a filing table files its own members. -/
theorem wellFiled_of_find? (h : FiledObjects t) {key : Scalar} {o : ObjectDefinition}
    (hf : Table.find? t key = some o) : o.WellFiled := by
  obtain ⟨k, hm, -⟩ := Table.mem_of_find? hf
  exact h.wellFiled (k, o) hm

-- The content of objects, by name.
private def dumpObjects (t : Table ObjectDefinition) : Except Fault (Table Value) :=
  t.mapM fun (name, o) => do return (name, ← dumpObject o)

/-- The objects of a table, in the order of their names. -/
def view (t : Table ObjectDefinition) : Value :=
  .table (Table.mapValues ObjectDefinition.view (sortOn Prod.fst t))

private theorem dumpObjects_eq (h : FiledObjects t) :
    dumpObjects (sortOn Prod.fst t) =
      .ok (Table.mapValues ObjectDefinition.view (sortOn Prod.fst t)) := by
  have hp := sortOn_perm h.textKeyed.worded
  refine mapM_eq_ok fun e he => ?_
  obtain ⟨name, o⟩ := e
  have hview := (h.wellFiled (name, o) (hp.mem_iff.mp he)).dumpObject_eq_view
  dsimp only at hview ⊢
  rw [hview]
  rfl

private theorem isJson_view (h : FiledObjects t) : IsJson 8 (view t) := by
  have hp := sortOn_perm h.textKeyed.worded
  refine .table ((h.distinct.perm hp.symm).mapValues _)
    (Table.Worded.mapValues (fun e he => h.textKeyed.worded e (hp.mem_iff.mp he)) _) fun e he => ?_
  obtain ⟨x, hx, rfl⟩ := List.mem_map.mp he
  exact (h.wellFiled x (hp.mem_iff.mp hx)).isJson_view

/-- Tables of objects of the same surfaces have one view. -/
theorem view_eq (h : FiledObjects t) (h' : FiledObjects t')
    (hs : ∀ name, Option.Rel ObjectDefinition.SameSurface (t.find? name) (t'.find? name)) :
    view t = view t' := by
  have hfound (name : Scalar) : Table.find? (Table.mapValues ObjectDefinition.view t) name =
      Table.find? (Table.mapValues ObjectDefinition.view t') name := by
    rw [Table.find?_mapValues, Table.find?_mapValues]
    have hname := hs name
    generalize ho : t.find? name = o, ho' : t'.find? name = o' at hname
    cases hname with
    | none => rfl
    | some hsame =>
      rw [Option.map_some, Option.map_some,
        (h.wellFiled_of_find? ho).view_eq (h'.wellFiled_of_find? ho') hsame]
  rw [view, view, ← Table.sortOn_mapValues h.textKeyed.worded,
    ← Table.sortOn_mapValues h'.textKeyed.worded, Table.sortOn_eq_of_find?
      (h.distinct.mapValues _) (h'.distinct.mapValues _) (h.textKeyed.mapValues _).worded
      (h'.textKeyed.mapValues _).worded hfound]

/-- The view of a table of objects tells their surfaces. -/
theorem sameSurface_of_view (h : FiledObjects t) (h' : FiledObjects t')
    (hv : (view t).inOrder = (view t').inOrder) (name : Scalar) :
    Option.Rel ObjectDefinition.SameSurface (t.find? name) (t'.find? name) := by
  have hname := Value.find?_eq_of_inOrder h.distinct h.textKeyed.worded h'.distinct
    h'.textKeyed.worded hv name
  cases ho : t.find? name with
  | none =>
    rw [ho, Option.map_none, eq_comm, Option.map_eq_none_iff] at hname
    rw [hname]
    exact .none
  | some o =>
    rw [ho, Option.map_some, eq_comm, Option.map_eq_some_iff] at hname
    obtain ⟨o', ho', hsame⟩ := hname
    rw [ho']
    exact .some ((h.wellFiled_of_find? ho).sameSurface_of_view (h'.wellFiled_of_find? ho')
      hsame.symm)

end FiledObjects

/-- Two interfaces have the same names and the same declarations, in whatever order these were
folded. -/
structure SameSurface (i i' : Interface) : Prop where
  namespaceName : i.namespaceName = i'.namespaceName
  crateName : i.crateName = i'.crateName
  functions : ∀ name, Table.find? i.functions name = Table.find? i'.functions name
  objects : ∀ name, Option.Rel ObjectDefinition.SameSurface (Table.find? i.objects name)
    (Table.find? i'.objects name)
  records : ∀ name, Table.find? i.records name = Table.find? i'.records name
  enums : ∀ name, Table.find? i.enums name = Table.find? i'.enums name
  callbackInterfaces : ∀ name,
    Table.find? i.callbackInterfaces name = Table.find? i'.callbackInterfaces name
  customTypes : ∀ name, Table.find? i.customTypes name = Table.find? i'.customTypes name

-- The entries of the content of an interface.
private def entries (i : Interface) : Table Value :=
  [("namespace", i.namespaceName), ("crate_name", i.crateName), ("functions", i.functions.view),
    ("objects", FiledObjects.view i.objects), ("records", i.records.view), ("enums", i.enums.view),
    ("callback_interfaces", i.callbackInterfaces.view), ("custom_types", i.customTypes.view)]

/-- The content of an interface, as it is found in it. -/
def view (i : Interface) : Value := .table i.entries

private theorem distinct_entries (i : Interface) : i.entries.Distinct := by
  simp [entries, Table.Distinct]

private theorem worded_entries (i : Interface) : i.entries.Worded := by
  simp [entries, Table.Worded]

namespace WellFiled

/-- The content of a well-filed interface is its view. -/
theorem content_eq_view (h : i.WellFiled) : i.content = .ok i.view := by
  change (do
    let functions ← dump i.functions
    let objects ← FiledObjects.dumpObjects (← sorted i.objects)
    let records ← dump i.records
    let enums ← dump i.enums
    let callbackInterfaces ← dump i.callbackInterfaces
    let customTypes ← dump i.customTypes
    return Value.table [("namespace", i.namespaceName), ("crate_name", i.crateName),
      ("functions", functions), ("objects", .table objects), ("records", records),
      ("enums", enums), ("callback_interfaces", callbackInterfaces),
      ("custom_types", customTypes)]) = _
  rw [h.functions.dump_eq_view, sorted, sortByKey_of_words h.objects.textKeyed.worded, ok_bind,
    ok_bind, h.objects.dumpObjects_eq, h.records.dump_eq_view, h.enums.dump_eq_view,
    h.callbackInterfaces.dump_eq_view, h.customTypes.dump_eq_view]
  rfl

/-- The checksum of a well-filed interface is the digest of its view as text. -/
theorem checksum_eq (h : i.WellFiled) :
    i.checksum = .ok (Sha256.hexDigest (Utf8.encode (Json.write i.view))) := by
  rw [checksum, canonicalText, h.content_eq_view]
  rfl

private theorem isJson_view (h : i.WellFiled) : IsJson 9 i.view := by
  refine .table i.distinct_entries i.worded_entries ?_
  have hmono {v : Value} (hv : IsJson 6 v) : IsJson 8 v := hv.mono (by decide)
  simpa [entries] using ⟨Value.isJson_of_isOptionalText h.namespaceName,
    Value.isJson_of_isOptionalText h.crateName, hmono h.functions.isJson_view,
    h.objects.isJson_view, hmono h.records.isJson_view, hmono h.enums.isJson_view,
    hmono h.callbackInterfaces.isJson_view, hmono h.customTypes.isJson_view⟩

/-- Interfaces of one surface have one content. -/
theorem view_eq (h : i.WellFiled) (h' : i'.WellFiled) (hs : i.SameSurface i') :
    i.view = i'.view := by
  rw [view, view, entries, entries, hs.namespaceName, hs.crateName,
    h.functions.view_eq h'.functions hs.functions, h.objects.view_eq h'.objects hs.objects,
    h.records.view_eq h'.records hs.records, h.enums.view_eq h'.enums hs.enums,
    h.callbackInterfaces.view_eq h'.callbackInterfaces hs.callbackInterfaces,
    h.customTypes.view_eq h'.customTypes hs.customTypes]

/-- The content of an interface tells its surface. -/
theorem sameSurface_of_view (h : i.WellFiled) (h' : i'.WellFiled)
    (hv : i.view.inOrder = i'.view.inOrder) : i.SameSurface i' := by
  have hpart (key : String) {v v' : Value} :
      Table.find? i.entries key = some v → Table.find? i'.entries key = some v' →
        v.inOrder = v'.inOrder :=
    Value.inOrder_eq_of_find? i.distinct_entries i.worded_entries i'.distinct_entries
      i'.worded_entries hv key
  have hname {v v' : Value} (ht : v.isOptionalText = true) (ht' : v'.isOptionalText = true)
      (hsame : v.inOrder = v'.inOrder) : v = v' := by
    rwa [Value.inOrder_of_isOptionalText ht, Value.inOrder_of_isOptionalText ht'] at hsame
  exact {
    namespaceName := hname h.namespaceName h'.namespaceName (hpart "namespace" rfl rfl)
    crateName := hname h.crateName h'.crateName (hpart "crate_name" rfl rfl)
    functions := h.functions.find?_eq_of_view h'.functions (hpart "functions" rfl rfl)
    objects := h.objects.sameSurface_of_view h'.objects (hpart "objects" rfl rfl)
    records := h.records.find?_eq_of_view h'.records (hpart "records" rfl rfl)
    enums := h.enums.find?_eq_of_view h'.enums (hpart "enums" rfl rfl)
    callbackInterfaces := h.callbackInterfaces.find?_eq_of_view h'.callbackInterfaces
      (hpart "callback_interfaces" rfl rfl)
    customTypes := h.customTypes.find?_eq_of_view h'.customTypes (hpart "custom_types" rfl rfl) }

end WellFiled

/-- A group of an object with methods that have neither arguments nor results. -/
def shapeGroup (names : List String) : Group :=
  ⟨⟨.text "geo", .text "geo"⟩, .object ⟨.text "geo", .text "Shape", .null⟩ :: names.map fun name =>
    .method ⟨.text "geo", .text "Shape", .text name, [], .null, .null, .bool false, .null⟩⟩

/-- The interface of such an object. -/
def shape (names : List String) : Interface :=
  { empty with
    namespaceName := .text "geo"
    crateName := .text "geo"
    objects := [(.text "Shape", ⟨⟨.text "geo", .text "Shape", .null⟩, [], names.map fun name =>
      (.text name,
        ⟨.text "geo", .text "Shape", .text name, [], .null, .null, .bool false, .null⟩)⟩)] }

/-- The interface of such an object is reachable where its group folds into it. -/
theorem reachable_shape {names : List String} (ht : (shapeGroup names).isTyped = true)
    (hf : (empty.addGroup (shapeGroup names)).1 = shape names) : Reachable (shape names) :=
  hf ▸ .addGroup .empty ht

/-- The order of the methods does not belong to the surface. -/
theorem sameSurface_shape {names names' : List String} (hd : names.Nodup)
    (hp : names.Perm names') : SameSurface (shape names) (shape names') := by
  refine ⟨rfl, rfl, fun _ => rfl, fun key => ?_, fun _ => rfl, fun _ => rfl, fun _ => rfl,
    fun _ => rfl⟩
  change Option.Rel ObjectDefinition.SameSurface (if _ then _ else _) (if _ then _ else _)
  split
  · refine .some ⟨rfl, fun _ => rfl, Table.find?_perm (List.pairwise_map.mpr ?_) (hp.map _)⟩
    exact hd.imp fun hne => by simpa using hne
  · exact .none

end Interface

end BindGen

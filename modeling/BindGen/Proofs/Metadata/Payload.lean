import BindGen.Metadata.Payload
import BindGen.Proofs.Json.Value
import BindGen.Proofs.Run.Fold

/-!
# Reading payloads

An item is read from its payload as it was, also if the payload has been through JSON, which leaves
the entries of all tables in the order of their keys. An item that was read from JSON has a payload
that is JSON again.
-/

namespace BindGen

namespace Value

/-- A look-up in a table whose entries have been put in order. -/
theorem find?_inOrder {entries : Table Value} (hd : entries.Distinct) (hk : entries.Worded)
    (key : Scalar) :
    Table.find? (sortOn Prod.fst (Table.mapValues inOrder entries)) key =
      (Table.find? entries key).map inOrder := by
  rw [← Table.find?_mapValues, Table.find?_perm ((hd.mapValues _).perm
    (sortOn_perm (hk.mapValues _)).symm) (sortOn_perm (hk.mapValues _))]

end Value

/-- The part of a table whose entries have been put in order. -/
theorem Value.part_inOrder {entries : Table Value} (hd : entries.Distinct)
    (hk : entries.Worded) {key : String} {v : Value} (h : Table.find? entries key = some v) :
    (Value.table entries).inOrder.part key = .ok v.inOrder := by
  rw [inOrder_table, part, find?_inOrder hd hk, h]
  rfl

namespace Field

/-- A field is read from its payload. -/
theorem ofPayload_inOrder (f : Field) : ofPayload f.payload.inOrder = .ok f := by
  have hd : Table.Distinct [("name", f.name.value), ("type", f.type.value)] := by
    simp [Table.Distinct]
  have hk : Table.Worded [("name", f.name.value), ("type", f.type.value)] := by
    simp [Table.Worded]
  rw [payload, ofPayload, Value.part_inOrder hd hk rfl, Value.part_inOrder hd hk rfl,
    LooseText.value, LooseText.value, Value.inOrder_scalar, Value.inOrder_scalar]
  change Except.ok (Field.mk f.name.value.wording f.type.value.wording) = _
  rw [LooseText.wording_value, LooseText.wording_value]

private theorem listOfPayload_inOrder (fs : List Field) :
    listOfPayload (Value.list (fs.map payload)).inOrder = .ok fs := by
  have h := mapM_map (g := ofPayload) (f := fun f : Field => f.payload.inOrder) (r := id) (l := fs)
    fun f _ => f.ofPayload_inOrder
  rw [List.map_id] at h
  rw [Value.inOrder_list, List.map_map]
  exact h

end Field

namespace Variant

/-- A variant is read from its payload. -/
theorem ofPayload_inOrder (v : Variant) : ofPayload v.payload.inOrder = .ok v := by
  have hd : Table.Distinct
      [("name", v.name.value), ("fields", Value.list (v.fields.map Field.payload))] := by
    simp [Table.Distinct]
  have hk : Table.Worded
      [("name", v.name.value), ("fields", Value.list (v.fields.map Field.payload))] := by
    simp [Table.Worded]
  have hfields := Value.find?_inOrder hd hk "fields"
  rw [payload, ofPayload, Value.part_inOrder hd hk rfl, LooseText.value, Value.inOrder_scalar,
    Value.inOrder_table, ← LooseText.value]
  dsimp only
  rw [hfields]
  change (do
    let name ← Except.ok v.name.value
    let fields ← Field.listOfPayload (Value.list (v.fields.map Field.payload)).inOrder
    return Variant.mk name.wording fields) = _
  rw [Field.listOfPayload_inOrder]
  change Except.ok (Variant.mk v.name.value.wording v.fields) = _
  rw [LooseText.wording_value]

private theorem listOfPayload_inOrder (vs : List Variant) :
    listOfPayload (Value.list (vs.map payload)).inOrder = .ok vs := by
  have h := mapM_map (g := ofPayload) (f := fun v : Variant => v.payload.inOrder) (r := id)
    (l := vs)
    fun v _ => v.ofPayload_inOrder
  rw [List.map_id] at h
  rw [Value.inOrder_list, List.map_map]
  exact h

end Variant

/-- A table has the fields that another one has, with the entries of all tables in order. -/
def HoldsFields (values fields : Table Value) : Prop :=
  ∀ key, Table.find? values key = (Table.find? fields key).map Value.inOrder

namespace HoldsFields

open Payload

variable {values fields : Table Value} (h : HoldsFields values fields)
include h

private theorem has_eq (key : Scalar) : Table.has values key = Table.has fields key := by
  rw [Table.has, h, Option.isSome_map, Table.has]

private theorem field_eq {key : String} {v : Value} (hv : Table.find? fields key = some v) :
    field values key = v.inOrder := by
  rw [field, h, hv]
  rfl

private theorem flag_eq {key : String} {v : Value} (hv : Table.find? fields key = some v) :
    flag values key = v.inOrder := by
  rw [flag, h, hv]
  rfl

private theorem listUnder_eq {α : Type} {key : String} {v : Value}
    {read : Value → Except PayloadError (List α)}
    {xs : List α} (hv : Table.find? fields key = some v) (hr : read v.inOrder = .ok xs) :
    listUnder values key read = .ok xs := by
  rw [listUnder, h, hv]
  exact hr

private theorem has_iff {kind : Kind} (hk : Table.keys fields = kind.keys.map Scalar.text)
    (key : Scalar) :
    Table.has values key = true ↔ ∃ known ∈ kind.keys, (Scalar.text known).same key = true := by
  rw [h.has_eq, Table.has_iff]
  constructor
  · rintro ⟨e, he, hs⟩
    have hm : e.1 ∈ kind.keys.map Scalar.text := hk ▸ List.mem_map_of_mem he
    obtain ⟨known, hknown, hkey⟩ := List.mem_map.mp hm
    exact ⟨known, hknown, hkey ▸ hs⟩
  · rintro ⟨known, hknown, hs⟩
    have hm : Scalar.text known ∈ Table.keys fields := hk ▸ List.mem_map_of_mem hknown
    obtain ⟨e, he, hkey⟩ := List.mem_map.mp hm
    exact ⟨e, he, hkey ▸ hs⟩

private theorem checkKeys_eq {kind : Kind} (hk : Table.keys fields = kind.keys.map Scalar.text) :
    checkKeys kind values = .ok () := by
  have hnone :
      ((Table.keys values).filter fun k => !(kind.keys.any fun known => k.same known)) = [] := by
    rw [List.filter_eq_nil_iff]
    intro k hm
    obtain ⟨e, he, rfl⟩ := List.mem_map.mp hm
    obtain ⟨known, hknown, hs⟩ := (h.has_iff hk e.1).mp
      (Table.has_iff.mpr ⟨e, he, Scalar.same_refl _⟩)
    simpa using ⟨known, hknown, Scalar.same_symm hs⟩
  rw [checkKeys, hnone]
  rfl

private theorem checkRequired_eq {kind : Kind}
    (hk : Table.keys fields = kind.keys.map Scalar.text) :
    checkRequired kind values = .ok () := by
  have hnone : (kind.requiredKeys.filter fun k => !Table.has values (.text k)) = [] := by
    rw [List.filter_eq_nil_iff]
    intro k hm
    have hknown : k ∈ kind.keys := List.mem_append_left _ hm
    rw [(h.has_iff hk (.text k)).mpr ⟨k, hknown, Scalar.same_refl _⟩]
    exact Bool.false_ne_true
  rw [checkRequired, hnone]
  rfl

end HoldsFields

private theorem keys_distinct (kind : Kind) :
    (kind.keys.map Scalar.text ++ [Scalar.text "kind"]).Pairwise
      fun (a b : Scalar) => a.same b = false := by
  cases kind <;> decide

/-- Entries with texts as their keys are worded. -/
theorem worded_of_keys {fields : Table Value} {names : List String}
    (hk : Table.keys fields = names.map Scalar.text) : fields.Worded := by
  intro e he
  have hm : e.1 ∈ names.map Scalar.text := hk ▸ List.mem_map_of_mem he
  obtain ⟨s, -, hs⟩ := List.mem_map.mp hm
  exact ⟨s, hs.symm⟩

/-- Entries under the keys of a kind have no key twice. -/
theorem distinct_of_keys {fields : Table Value} {kind : Kind}
    (hk : Table.keys fields = kind.keys.map Scalar.text) : fields.Distinct := by
  have hp : (Table.keys fields).Pairwise fun (a b : Scalar) => a.same b = false := by
    rw [hk]
    exact (List.pairwise_append.mp (keys_distinct kind)).1
  exact List.pairwise_map.mp hp

/-- A function whose fields have the entries of their tables in order. -/
def FunctionDecl.inOrder (d : FunctionDecl) : FunctionDecl where
  modulePath := d.modulePath.inOrder
  name := d.name.inOrder
  inputs := d.inputs
  returnType := d.returnType.inOrder
  throws := d.throws.inOrder
  isAsync := d.isAsync.inOrder
  docstring := d.docstring.inOrder

/-- An item whose fields have the entries of their tables in order. -/
def Item.inOrder : Item → Item
  | namespaceDecl d => namespaceDecl ⟨d.crateName.inOrder, d.name.inOrder⟩
  | udlFile d => udlFile ⟨d.modulePath.inOrder, d.namespaceName.inOrder, d.fileStub.inOrder⟩
  | function d => function d.inOrder
  | constructor d =>
    constructor ⟨d.modulePath.inOrder, d.selfName.inOrder, d.name.inOrder, d.inputs,
      d.throws.inOrder, d.docstring.inOrder⟩
  | method d =>
    method ⟨d.modulePath.inOrder, d.selfName.inOrder, d.name.inOrder, d.inputs,
      d.returnType.inOrder, d.throws.inOrder, d.isAsync.inOrder, d.docstring.inOrder⟩
  | record d => record ⟨d.modulePath.inOrder, d.name.inOrder, d.fields, d.docstring.inOrder⟩
  | enum d =>
    enum ⟨d.modulePath.inOrder, d.name.inOrder, d.variants, d.isError.inOrder, d.docstring.inOrder⟩
  | object d => object ⟨d.modulePath.inOrder, d.name.inOrder, d.docstring.inOrder⟩
  | callbackInterface d =>
    callbackInterface ⟨d.modulePath.inOrder, d.name.inOrder, d.methods.map FunctionDecl.inOrder,
      d.docstring.inOrder⟩
  | customType d => customType ⟨d.modulePath.inOrder, d.name.inOrder, d.builtin.inOrder⟩

open Payload

namespace FunctionDecl

/-- A function is read from its fields. -/
theorem ofFields_holds {values : Table Value} {d : FunctionDecl} (h : HoldsFields values d.fields) :
    ofFields values = .ok d.inOrder := by
  rw [ofFields, h.checkKeys_eq rfl, h.listUnder_eq rfl (Field.listOfPayload_inOrder _),
    h.checkRequired_eq rfl, h.field_eq rfl, h.field_eq rfl, h.field_eq rfl, h.field_eq rfl,
    h.field_eq rfl, h.flag_eq rfl]
  rfl

private theorem listOfPayload_inOrder (ds : List FunctionDecl) :
    listOfPayload (Value.list (ds.map fun d => .table d.fields)).inOrder =
      .ok (ds.map inOrder) := by
  have h := mapM_map (g := ofPayload) (f := fun d : FunctionDecl => (Value.table d.fields).inOrder)
    (r := inOrder) (l := ds) fun d _ => by
      have hk : Table.keys d.fields = Kind.function.keys.map Scalar.text := rfl
      rw [Value.inOrder_table]
      exact ofFields_holds (Value.find?_inOrder (distinct_of_keys hk) (worded_of_keys hk))
  rw [Value.inOrder_list, List.map_map]
  exact h

end FunctionDecl

namespace Item

/-- An item is read from its fields. -/
theorem ofFields_holds {values : Table Value} {item : Item} (h : HoldsFields values item.fields) :
    ofFields item.kind values = .ok item.inOrder := by
  cases item with
  | namespaceDecl d =>
    rw [kind, ofFields, h.checkKeys_eq rfl, h.checkRequired_eq rfl, h.field_eq rfl, h.field_eq rfl]
    rfl
  | udlFile d =>
    rw [kind, ofFields, h.checkKeys_eq rfl, h.checkRequired_eq rfl, h.field_eq rfl, h.field_eq rfl,
      h.field_eq rfl]
    rfl
  | function d =>
    rw [kind, ofFields, FunctionDecl.ofFields_holds h]
    rfl
  | constructor d =>
    rw [kind, ofFields, h.checkKeys_eq rfl, h.listUnder_eq rfl (Field.listOfPayload_inOrder _),
      h.checkRequired_eq rfl, h.field_eq rfl, h.field_eq rfl, h.field_eq rfl, h.field_eq rfl,
      h.field_eq rfl]
    rfl
  | method d =>
    rw [kind, ofFields, h.checkKeys_eq rfl, h.listUnder_eq rfl (Field.listOfPayload_inOrder _),
      h.checkRequired_eq rfl, h.field_eq rfl, h.field_eq rfl, h.field_eq rfl, h.field_eq rfl,
      h.field_eq rfl, h.field_eq rfl, h.flag_eq rfl]
    rfl
  | record d =>
    rw [kind, ofFields, h.checkKeys_eq rfl, h.listUnder_eq rfl (Field.listOfPayload_inOrder _),
      h.checkRequired_eq rfl, h.field_eq rfl, h.field_eq rfl, h.field_eq rfl]
    rfl
  | enum d =>
    rw [kind, ofFields, h.checkKeys_eq rfl, h.listUnder_eq rfl (Variant.listOfPayload_inOrder _),
      h.checkRequired_eq rfl, h.field_eq rfl, h.field_eq rfl, h.field_eq rfl, h.flag_eq rfl]
    rfl
  | object d =>
    rw [kind, ofFields, h.checkKeys_eq rfl, h.checkRequired_eq rfl, h.field_eq rfl, h.field_eq rfl,
      h.field_eq rfl]
    rfl
  | callbackInterface d =>
    rw [kind, ofFields, h.checkKeys_eq rfl,
      h.listUnder_eq rfl (FunctionDecl.listOfPayload_inOrder _), h.checkRequired_eq rfl,
      h.field_eq rfl, h.field_eq rfl, h.field_eq rfl]
    rfl
  | customType d =>
    rw [kind, ofFields, h.checkKeys_eq rfl, h.checkRequired_eq rfl, h.field_eq rfl, h.field_eq rfl,
      h.field_eq rfl]
    rfl

/-- The entries of an item stand under the keys of its kind. -/
theorem keys_fields (item : Item) : Table.keys item.fields = item.kind.keys.map Scalar.text := by
  cases item <;> rfl

private theorem keys_payload (item : Item) :
    Table.keys item.payload = (item.kind.keys ++ ["kind"]).map Scalar.text := by
  rw [payload, Table.keys, List.map_append, List.map_append, ← item.keys_fields]
  rfl

/-- The payload of an item has texts as its keys. -/
theorem worded_payload (item : Item) : item.payload.Worded :=
  worded_of_keys item.keys_payload

/-- The payload of an item has no key twice. -/
theorem distinct_payload (item : Item) : item.payload.Distinct := by
  have hp : (Table.keys item.payload).Pairwise fun (a b : Scalar) => a.same b = false := by
    rw [keys_payload, List.map_append]
    exact keys_distinct item.kind
  exact List.pairwise_map.mp hp

/-- An item is read from its payload, after the entries of all tables have been put in order. -/
theorem ofPayload_inOrder (item : Item) :
    ofPayload (sortOn Prod.fst (Table.mapValues Value.inOrder item.payload)) =
      .ok item.inOrder := by
  have hperm : (sortOn Prod.fst (Table.mapValues Value.inOrder item.payload)).Perm
      (Table.mapValues Value.inOrder item.payload) :=
    sortOn_perm (item.worded_payload.mapValues Value.inOrder)
  have hd := (item.distinct_payload.mapValues Value.inOrder).perm hperm.symm
  have hfind := Value.find?_inOrder item.distinct_payload item.worded_payload
  generalize sortOn Prod.fst (Table.mapValues Value.inOrder item.payload) = values at hd hfind
  have hkind : Table.find? values "kind" = some (.text item.kind.tag) := by
    rw [hfind]
    cases item <;> exact congrArg some (Value.inOrder_scalar _)
  have hfields : HoldsFields (Table.remove values "kind") item.fields := by
    intro key
    rw [Table.find?_remove hd, hfind]
    by_cases hkey : (Scalar.text "kind").same key = true
    · rw [if_pos hkey, Scalar.eq_text_of_same (Scalar.same_symm hkey)]
      cases item <;> rfl
    · rw [if_neg hkey, payload, Table.find?_append, Table.find?, if_neg hkey, Table.find?_nil,
        Option.or_none]
  have htag : (Value.text item.kind.tag).text?.bind Kind.ofTag? = some item.kind :=
    item.kind.ofTag?_tag
  rw [ofPayload, hkind, Option.getD_some, htag]
  exact ofFields_holds hfields

/-- All fields of an item are values of JSON. -/
def HasJsonFields (n : Nat) (item : Item) : Prop := ∀ e ∈ item.fields, Json.IsJson n e.2

end Item

section JsonFields

open Json

variable {n : Nat} {values : Table Value}

private theorem isJson_null : IsJson n .null := .scalar (show HasForm .null from trivial)

/-- A text is JSON at any depth. -/
theorem isJson_value (t : LooseText) : IsJson n t.value := by
  cases t <;> exact .scalar trivial

/-- A list of fields is JSON of depth two. -/
theorem isJson_fields (fs : List Field) : IsJson 2 (.list (fs.map Field.payload)) := by
  refine .list fun v hv => ?_
  obtain ⟨f, -, rfl⟩ := List.mem_map.mp hv
  refine .table (by simp [Table.Distinct]) (by simp [Table.Worded]) ?_
  simp only [List.forall_mem_cons, List.not_mem_nil, false_implies, implies_true, and_true]
  exact ⟨isJson_value _, isJson_value _⟩

/-- A list of variants is JSON of depth four. -/
theorem isJson_variants (vs : List Variant) :
    IsJson 4 (.list (vs.map Variant.payload)) := by
  refine .list fun v hv => ?_
  obtain ⟨v, -, rfl⟩ := List.mem_map.mp hv
  refine .table (by simp [Table.Distinct]) (by simp [Table.Worded]) ?_
  simp only [List.forall_mem_cons, List.not_mem_nil, false_implies, implies_true, and_true]
  exact ⟨isJson_value _, isJson_fields v.fields⟩

variable (h : ∀ e ∈ values, IsJson n e.2)
include h

private theorem isJson_getD {v : Value} (hv : IsJson n v) (key : Scalar) :
    IsJson n ((Table.find? values key).getD v) := by
  cases hf : Table.find? values key with
  | none => exact hv
  | some w =>
    obtain ⟨k, hm, -⟩ := Table.mem_of_find? hf
    exact h (k, w) hm

private theorem isJson_field (key : String) :
    IsJson n (field values key) := isJson_getD h isJson_null _

private theorem isJson_flag (key : String) : IsJson n (flag values key) :=
  isJson_getD h (.scalar (show HasForm (.bool false) from trivial)) _

private theorem isJson_functionFields (hn : 2 ≤ n) {d : FunctionDecl}
    (hd : FunctionDecl.ofFields values = .ok d) : ∀ e ∈ d.fields, IsJson n e.2 := by
  rw [FunctionDecl.ofFields] at hd
  obtain ⟨-, -, hd⟩ := exists_of_bind_eq_ok hd
  obtain ⟨inputs, -, hd⟩ := exists_of_bind_eq_ok hd
  obtain ⟨-, -, hd⟩ := exists_of_bind_eq_ok hd
  obtain rfl := Except.ok.inj hd
  simp only [FunctionDecl.fields, List.forall_mem_cons, List.not_mem_nil, false_implies,
    implies_true, and_true]
  exact ⟨isJson_field h _, isJson_field h _, (isJson_fields inputs).mono hn, isJson_field h _,
    isJson_field h _, isJson_flag h _, isJson_field h _⟩

omit h in
private theorem isJson_functions (hn : 4 ≤ n) {v : Value} (hv : IsJson n v) {ds : List FunctionDecl}
    (hd : FunctionDecl.listOfPayload v = .ok ds) :
    IsJson n (.list (ds.map fun d => .table d.fields)) := by
  cases hv with
  | scalar => cases hd
  | table => cases hd
  | @list n items hitems =>
    refine .list fun w hw => ?_
    obtain ⟨d, hmem, rfl⟩ := List.mem_map.mp hw
    refine forall_mem_of_mapM (P := fun d => IsJson n (.table d.fields)) (fun a ha b hb => ?_) hd d
      hmem
    rw [FunctionDecl.ofPayload.eq_def] at hb
    split at hb
    · next values =>
      cases hitems _ ha with
      | @table n _ _ _ hvalues =>
        have hk : Table.keys b.fields = Kind.function.keys.map Scalar.text := rfl
        exact .table (distinct_of_keys hk) (worded_of_keys hk)
          (isJson_functionFields hvalues (by omega) hb)
    · cases hb

-- The fields of an item that was read from values of JSON are values of JSON.
private theorem hasJsonFields_of_ofFields (hn : 4 ≤ n) {kind : Kind} {item : Item}
    (hi : Item.ofFields kind values = .ok item) : item.HasJsonFields n := by
  have hfields (fs : List Field) : IsJson n (.list (fs.map Field.payload)) :=
    (isJson_fields fs).mono (by omega)
  cases kind with
  | namespaceDecl =>
    obtain ⟨-, -, hi⟩ := exists_of_bind_eq_ok hi
    obtain ⟨-, -, hi⟩ := exists_of_bind_eq_ok hi
    obtain rfl := Except.ok.inj hi
    simpa [Item.HasJsonFields, Item.fields, NamespaceDecl.fields] using
      ⟨isJson_field h _, isJson_field h _⟩
  | udlFile =>
    obtain ⟨-, -, hi⟩ := exists_of_bind_eq_ok hi
    obtain ⟨-, -, hi⟩ := exists_of_bind_eq_ok hi
    obtain rfl := Except.ok.inj hi
    simpa [Item.HasJsonFields, Item.fields, UdlFileDecl.fields] using
      ⟨isJson_field h _, isJson_field h _, isJson_field h _⟩
  | function =>
    obtain ⟨d, hd, hi⟩ := exists_of_bind_eq_ok hi
    obtain rfl := Except.ok.inj hi
    exact isJson_functionFields h (by omega) hd
  | constructor =>
    obtain ⟨-, -, hi⟩ := exists_of_bind_eq_ok hi
    obtain ⟨inputs, -, hi⟩ := exists_of_bind_eq_ok hi
    obtain ⟨-, -, hi⟩ := exists_of_bind_eq_ok hi
    obtain rfl := Except.ok.inj hi
    simpa [Item.HasJsonFields, Item.fields, ConstructorDecl.fields] using
      ⟨isJson_field h _, isJson_field h _, isJson_field h _, hfields inputs, isJson_field h _,
        isJson_field h _⟩
  | method =>
    obtain ⟨-, -, hi⟩ := exists_of_bind_eq_ok hi
    obtain ⟨inputs, -, hi⟩ := exists_of_bind_eq_ok hi
    obtain ⟨-, -, hi⟩ := exists_of_bind_eq_ok hi
    obtain rfl := Except.ok.inj hi
    simpa [Item.HasJsonFields, Item.fields, MethodDecl.fields] using
      ⟨isJson_field h _, isJson_field h _, isJson_field h _, hfields inputs, isJson_field h _,
        isJson_field h _, isJson_flag h _, isJson_field h _⟩
  | record =>
    obtain ⟨-, -, hi⟩ := exists_of_bind_eq_ok hi
    obtain ⟨fields, -, hi⟩ := exists_of_bind_eq_ok hi
    obtain ⟨-, -, hi⟩ := exists_of_bind_eq_ok hi
    obtain rfl := Except.ok.inj hi
    simpa [Item.HasJsonFields, Item.fields, RecordDecl.payloadFields] using
      ⟨isJson_field h _, isJson_field h _, hfields fields, isJson_field h _⟩
  | enum =>
    obtain ⟨-, -, hi⟩ := exists_of_bind_eq_ok hi
    obtain ⟨variants, -, hi⟩ := exists_of_bind_eq_ok hi
    obtain ⟨-, -, hi⟩ := exists_of_bind_eq_ok hi
    obtain rfl := Except.ok.inj hi
    simpa [Item.HasJsonFields, Item.fields, EnumDecl.fields] using
      ⟨isJson_field h _, isJson_field h _, (isJson_variants variants).mono hn, isJson_flag h _,
        isJson_field h _⟩
  | object =>
    obtain ⟨-, -, hi⟩ := exists_of_bind_eq_ok hi
    obtain ⟨-, -, hi⟩ := exists_of_bind_eq_ok hi
    obtain rfl := Except.ok.inj hi
    simpa [Item.HasJsonFields, Item.fields, ObjectDecl.fields] using
      ⟨isJson_field h _, isJson_field h _, isJson_field h _⟩
  | callbackInterface =>
    obtain ⟨-, -, hi⟩ := exists_of_bind_eq_ok hi
    obtain ⟨methods, hm, hi⟩ := exists_of_bind_eq_ok hi
    obtain ⟨-, -, hi⟩ := exists_of_bind_eq_ok hi
    obtain rfl := Except.ok.inj hi
    have hmethods : IsJson n (.list (methods.map fun d => .table d.fields)) := by
      rw [listUnder] at hm
      cases hf : Table.find? values (Scalar.text "methods") with
      | none =>
        rw [hf] at hm
        obtain rfl := Except.ok.inj hm
        exact (isJson_fields []).mono (by omega)
      | some v =>
        rw [hf] at hm
        obtain ⟨k, hmem, -⟩ := Table.mem_of_find? hf
        exact isJson_functions hn (h _ hmem) hm
    simpa [Item.HasJsonFields, Item.fields, CallbackInterfaceDecl.fields] using
      ⟨isJson_field h _, isJson_field h _, hmethods, isJson_field h _⟩
  | customType =>
    obtain ⟨-, -, hi⟩ := exists_of_bind_eq_ok hi
    obtain ⟨-, -, hi⟩ := exists_of_bind_eq_ok hi
    obtain rfl := Except.ok.inj hi
    simpa [Item.HasJsonFields, Item.fields, CustomTypeDecl.fields] using
      ⟨isJson_field h _, isJson_field h _, isJson_field h _⟩

end JsonFields

namespace Item

open Json

variable {n : Nat} {item : Item}

/-- The fields of an item that was read from JSON are values of JSON. -/
theorem hasJsonFields_of_ofPayload (hn : 4 ≤ n) {payload : Table Value}
    (h : IsJson (n + 1) (.table payload)) (hi : ofPayload payload = .ok item) :
    item.HasJsonFields n := by
  cases h with
  | table hd hk hvalues =>
    rw [ofPayload] at hi
    split at hi
    · exact hasJsonFields_of_ofFields (fun e he => hvalues e (Table.mem_of_mem_remove he)) hn hi
    · cases hi

/-- The payload of an item whose fields are values of JSON is JSON. -/
theorem HasJsonFields.payload (h : item.HasJsonFields n) :
    IsJson (n + 1) (.table item.payload) := by
  refine .table item.distinct_payload item.worded_payload fun e he => ?_
  rcases List.mem_append.mp he with he | he
  · exact h e he
  · obtain rfl := List.mem_singleton.mp he
    exact isJson_value item.kind.tag

private theorem same_functionInOrder {d : FunctionDecl} (h : ∀ e ∈ d.fields, IsJson n e.2) :
    d.inOrder.same d = true := by
  simp only [FunctionDecl.fields, List.forall_mem_cons] at h
  obtain ⟨hpath, hname, -, hreturn, hthrows, hasync, hdoc, -⟩ := h
  simp [FunctionDecl.same, FunctionDecl.inOrder, hpath.same_inOrder, hname.same_inOrder,
    hreturn.same_inOrder, hthrows.same_inOrder, hasync.same_inOrder, hdoc.same_inOrder]

private theorem sameList_inOrder {ds : List FunctionDecl}
    (h : IsJson n (.list (ds.map fun d => .table d.fields))) :
    FunctionDecl.sameList (ds.map FunctionDecl.inOrder) ds = true := by
  cases h with
  | list h =>
    induction ds with
    | nil => rfl
    | cons d ds ih =>
      obtain ⟨hd, hds⟩ := List.forall_mem_cons.mp h
      cases hd with
      | table _ _ hfields =>
        rw [List.map_cons, FunctionDecl.sameList, same_functionInOrder hfields, ih hds]
        rfl

/-- Putting the entries of tables in order does not change what an item is the same as. -/
theorem HasJsonFields.same_inOrder (h : item.HasJsonFields n) : item.inOrder.same item = true := by
  rw [HasJsonFields] at h
  cases item with
  | namespaceDecl d =>
    simp only [fields, NamespaceDecl.fields, List.forall_mem_cons] at h
    obtain ⟨hcrate, hname, -⟩ := h
    simp [inOrder, same, NamespaceDecl.same, hcrate.same_inOrder, hname.same_inOrder]
  | udlFile d =>
    simp only [fields, UdlFileDecl.fields, List.forall_mem_cons] at h
    obtain ⟨hpath, hname, hstub, -⟩ := h
    simp [inOrder, same, UdlFileDecl.same, hpath.same_inOrder, hname.same_inOrder,
      hstub.same_inOrder]
  | function d => exact same_functionInOrder h
  | constructor d =>
    simp only [fields, ConstructorDecl.fields, List.forall_mem_cons] at h
    obtain ⟨hpath, hself, hname, -, hthrows, hdoc, -⟩ := h
    simp [inOrder, same, ConstructorDecl.same, hpath.same_inOrder, hself.same_inOrder,
      hname.same_inOrder, hthrows.same_inOrder, hdoc.same_inOrder]
  | method d =>
    simp only [fields, MethodDecl.fields, List.forall_mem_cons] at h
    obtain ⟨hpath, hself, hname, -, hreturn, hthrows, hasync, hdoc, -⟩ := h
    simp [inOrder, same, MethodDecl.same, hpath.same_inOrder, hself.same_inOrder,
      hname.same_inOrder, hreturn.same_inOrder, hthrows.same_inOrder, hasync.same_inOrder,
      hdoc.same_inOrder]
  | record d =>
    simp only [fields, RecordDecl.payloadFields, List.forall_mem_cons] at h
    obtain ⟨hpath, hname, -, hdoc, -⟩ := h
    simp [inOrder, same, RecordDecl.same, hpath.same_inOrder, hname.same_inOrder, hdoc.same_inOrder]
  | enum d =>
    simp only [fields, EnumDecl.fields, List.forall_mem_cons] at h
    obtain ⟨hpath, hname, -, herror, hdoc, -⟩ := h
    simp [inOrder, same, EnumDecl.same, hpath.same_inOrder, hname.same_inOrder, herror.same_inOrder,
      hdoc.same_inOrder]
  | object d =>
    simp only [fields, ObjectDecl.fields, List.forall_mem_cons] at h
    obtain ⟨hpath, hname, hdoc, -⟩ := h
    simp [inOrder, same, ObjectDecl.same, hpath.same_inOrder, hname.same_inOrder, hdoc.same_inOrder]
  | callbackInterface d =>
    simp only [fields, CallbackInterfaceDecl.fields, List.forall_mem_cons] at h
    obtain ⟨hpath, hname, hmethods, hdoc, -⟩ := h
    simp [inOrder, same, CallbackInterfaceDecl.same, hpath.same_inOrder, hname.same_inOrder,
      sameList_inOrder hmethods, hdoc.same_inOrder]
  | customType d =>
    simp only [fields, CustomTypeDecl.fields, List.forall_mem_cons] at h
    obtain ⟨hpath, hname, hbuiltin, -⟩ := h
    simp [inOrder, same, CustomTypeDecl.same, hpath.same_inOrder, hname.same_inOrder,
      hbuiltin.same_inOrder]

end Item

end BindGen

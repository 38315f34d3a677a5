import BindGen.Proofs.Metadata.Payload
import BindGen.Proofs.Metadata.Typed

/-!
# Payloads of typed items

The fields of typed items are texts, truth values, nothing, and lists of such fields. They are
values of JSON, and putting tables in order changes nothing in them: what is read from them is the
item itself, so that two typed declarations of one kind with the same fields are one.
-/

namespace BindGen

namespace Value

variable {n : Nat} {v : Value}

private theorem inOrder_of_isText (h : v.isText = true) : v.inOrder = v := by
  obtain ⟨s, rfl⟩ := isText_iff.mp h
  exact inOrder_scalar _

/-- An optional text has no keys to put in order. -/
theorem inOrder_of_isOptionalText (h : v.isOptionalText = true) : v.inOrder = v := by
  obtain rfl | ⟨s, rfl⟩ := isOptionalText_iff.mp h <;> exact inOrder_scalar _

private theorem inOrder_of_isFlag (h : v.isFlag = true) : v.inOrder = v := by
  obtain ⟨b, rfl⟩ := isFlag_iff.mp h
  exact inOrder_scalar _

/-- An optional text is JSON at any depth. -/
theorem isJson_of_isOptionalText (h : v.isOptionalText = true) : Json.IsJson n v := by
  obtain rfl | ⟨s, rfl⟩ := isOptionalText_iff.mp h
  · exact .scalar trivial
  · exact isJson_value s

private theorem isJson_of_isText (h : v.isText = true) : Json.IsJson n v :=
  isJson_of_isOptionalText (isOptionalText_of_isText h)

private theorem isJson_of_isFlag (h : v.isFlag = true) : Json.IsJson n v := by
  obtain ⟨b, rfl⟩ := isFlag_iff.mp h
  exact .scalar trivial

end Value

open Value

namespace FunctionDecl

private theorem inOrder_of_isTyped {d : FunctionDecl} (h : d.isTyped = true) : d.inOrder = d := by
  simp only [isTyped, Bool.and_eq_true] at h
  simp [inOrder, inOrder_of_isText, inOrder_of_isOptionalText, inOrder_of_isFlag, h]

private theorem isJson_fields {d : FunctionDecl} (h : d.isTyped = true) :
    ∀ e ∈ d.fields, Json.IsJson 2 e.2 := by
  simp only [isTyped, Bool.and_eq_true] at h
  obtain ⟨⟨⟨⟨⟨hpath, hname⟩, hreturn⟩, hthrows⟩, hasync⟩, hdoc⟩ := h
  simp only [fields, List.forall_mem_cons, List.not_mem_nil, false_implies, implies_true, and_true]
  exact ⟨isJson_of_isText hpath, isJson_of_isText hname, BindGen.isJson_fields d.inputs,
    isJson_of_isOptionalText hreturn, isJson_of_isOptionalText hthrows, isJson_of_isFlag hasync,
    isJson_of_isOptionalText hdoc⟩

private theorem isJson_list {ds : List FunctionDecl} (h : ds.all isTyped = true) :
    Json.IsJson 4 (.list (ds.map fun d => .table d.fields)) := by
  refine .list fun v hv => ?_
  obtain ⟨d, hd, rfl⟩ := List.mem_map.mp hv
  have hk : Table.keys d.fields = Kind.function.keys.map Scalar.text := rfl
  exact .table (distinct_of_keys hk) (worded_of_keys hk)
    (isJson_fields (List.all_eq_true.mp h d hd))

end FunctionDecl

namespace Item

variable {item : Item}

/-- Nothing in the fields of a typed item can be put in order. -/
theorem inOrder_of_isTyped (h : item.isTyped = true) : item.inOrder = item := by
  cases item with
  | callbackInterface d =>
    simp only [isTyped, CallbackInterfaceDecl.isTyped, Bool.and_eq_true, List.all_eq_true] at h
    obtain ⟨⟨⟨hpath, hname⟩, hmethods⟩, hdoc⟩ := h
    have hmap : d.methods.map FunctionDecl.inOrder = d.methods :=
      (List.map_congr_left fun m hm => FunctionDecl.inOrder_of_isTyped (hmethods m hm)).trans
        (List.map_id _)
    simp only [inOrder, hmap, inOrder_of_isText, inOrder_of_isOptionalText, hpath, hname, hdoc]
  | function d => exact congrArg Item.function (FunctionDecl.inOrder_of_isTyped h)
  | _ =>
    simp only [isTyped, NamespaceDecl.isTyped, UdlFileDecl.isTyped, ConstructorDecl.isTyped,
      MethodDecl.isTyped, RecordDecl.isTyped, EnumDecl.isTyped, ObjectDecl.isTyped,
      CustomTypeDecl.isTyped, Bool.and_eq_true] at h
    simp [inOrder, inOrder_of_isText, inOrder_of_isOptionalText, inOrder_of_isFlag, h]

/-- The fields of a typed item are values of JSON. -/
theorem hasJsonFields_of_isTyped (h : item.isTyped = true) : item.HasJsonFields 4 := by
  have hfields (fs : List Field) : Json.IsJson 4 (.list (fs.map Field.payload)) :=
    (isJson_fields fs).mono (by decide)
  cases item with
  | function d => exact fun e he => (FunctionDecl.isJson_fields h e he).mono (by decide)
  | callbackInterface d =>
    simp only [isTyped, CallbackInterfaceDecl.isTyped, Bool.and_eq_true] at h
    simpa [HasJsonFields, fields, CallbackInterfaceDecl.fields] using
      ⟨isJson_of_isText h.1.1.1, isJson_of_isText h.1.1.2, FunctionDecl.isJson_list h.1.2,
        isJson_of_isOptionalText h.2⟩
  | constructor d =>
    simp only [isTyped, ConstructorDecl.isTyped, Bool.and_eq_true] at h
    obtain ⟨⟨⟨⟨hpath, hself⟩, hname⟩, hthrows⟩, hdoc⟩ := h
    simpa [HasJsonFields, fields, ConstructorDecl.fields] using
      ⟨isJson_of_isText hpath, isJson_of_isText hself, isJson_of_isText hname, hfields d.inputs,
        isJson_of_isOptionalText hthrows, isJson_of_isOptionalText hdoc⟩
  | method d =>
    simp only [isTyped, MethodDecl.isTyped, Bool.and_eq_true] at h
    obtain ⟨⟨⟨⟨⟨⟨hpath, hself⟩, hname⟩, hreturn⟩, hthrows⟩, hasync⟩, hdoc⟩ := h
    simpa [HasJsonFields, fields, MethodDecl.fields] using
      ⟨isJson_of_isText hpath, isJson_of_isText hself, isJson_of_isText hname, hfields d.inputs,
        isJson_of_isOptionalText hreturn, isJson_of_isOptionalText hthrows, isJson_of_isFlag hasync,
        isJson_of_isOptionalText hdoc⟩
  | record d =>
    simp only [isTyped, RecordDecl.isTyped, Bool.and_eq_true] at h
    obtain ⟨⟨hpath, hname⟩, hdoc⟩ := h
    simpa [HasJsonFields, fields, RecordDecl.payloadFields] using
      ⟨isJson_of_isText hpath, isJson_of_isText hname, hfields d.fields,
        isJson_of_isOptionalText hdoc⟩
  | _ =>
    simp only [isTyped, NamespaceDecl.isTyped, UdlFileDecl.isTyped, EnumDecl.isTyped,
      ObjectDecl.isTyped, CustomTypeDecl.isTyped, Bool.and_eq_true] at h
    simp [HasJsonFields, fields, NamespaceDecl.fields, UdlFileDecl.fields, EnumDecl.fields,
      ObjectDecl.fields, CustomTypeDecl.fields, isJson_of_isText, isJson_of_isOptionalText,
      isJson_of_isFlag, isJson_variants, h]

end Item

/-- Kinds of declarations that are kinds of items. -/
class ItemDeclaration (α : Type) [Declaration α] [TypedDeclaration α] where
  kind : Kind
  item : α → Item
  item_injective : ∀ {a b : α}, item a = item b → a = b
  kind_item : ∀ d : α, (item d).kind = kind := by exact fun _ => rfl
  fields_item : ∀ d : α, (item d).fields = Declaration.fields d := by exact fun _ => rfl
  isTyped_item : ∀ d : α, (item d).isTyped = TypedDeclaration.isTyped d := by exact fun _ => rfl

/-- Functions are declarations that an item may hold. -/
instance : ItemDeclaration FunctionDecl where
  kind := .function
  item := .function
  item_injective := Item.function.inj

/-- Constructors are declarations that an item may hold. -/
instance : ItemDeclaration ConstructorDecl where
  kind := .constructor
  item := .constructor
  item_injective := Item.constructor.inj

/-- Methods are declarations that an item may hold. -/
instance : ItemDeclaration MethodDecl where
  kind := .method
  item := .method
  item_injective := Item.method.inj

/-- Records are declarations that an item may hold. -/
instance : ItemDeclaration RecordDecl where
  kind := .record
  item := .record
  item_injective := Item.record.inj

/-- Enums are declarations that an item may hold. -/
instance : ItemDeclaration EnumDecl where
  kind := .enum
  item := .enum
  item_injective := Item.enum.inj

/-- Objects are declarations that an item may hold. -/
instance : ItemDeclaration ObjectDecl where
  kind := .object
  item := .object
  item_injective := Item.object.inj

/-- Callback interfaces are declarations that an item may hold. -/
instance : ItemDeclaration CallbackInterfaceDecl where
  kind := .callbackInterface
  item := .callbackInterface
  item_injective := Item.callbackInterface.inj

/-- Custom types are declarations that an item may hold. -/
instance : ItemDeclaration CustomTypeDecl where
  kind := .customType
  item := .customType
  item_injective := Item.customType.inj

namespace Declaration

open ItemDeclaration

variable {α : Type} [Declaration α] [TypedDeclaration α] [ItemDeclaration α] {a b d : α}

private theorem keys_fields (d : α) :
    Table.keys (fields d) = (ItemDeclaration.kind α).keys.map Scalar.text := by
  rw [← fields_item, Item.keys_fields, kind_item]

private theorem ofFields_inOrder (h : TypedDeclaration.isTyped d = true) :
    Item.ofFields (ItemDeclaration.kind α)
      (sortOn Prod.fst (Table.mapValues inOrder (fields d))) = .ok (item d) := by
  have hholds :=
    find?_inOrder (distinct_of_keys (keys_fields d)) (worded_of_keys (keys_fields d))
  rw [← fields_item] at hholds ⊢
  rw [← kind_item d, Item.ofFields_holds hholds,
    Item.inOrder_of_isTyped ((isTyped_item d).trans h)]

/-- Typed declarations of one kind are equal if their fields are, in any order of tables. -/
theorem eq_of_fields (ha : TypedDeclaration.isTyped a = true)
    (hb : TypedDeclaration.isTyped b = true)
    (h : (Value.table (fields a)).inOrder = (Value.table (fields b)).inOrder) : a = b := by
  rw [inOrder_table, inOrder_table, Value.table.injEq] at h
  have hsame := ofFields_inOrder ha
  rw [h, ofFields_inOrder hb] at hsame
  exact item_injective (Except.ok.inj hsame).symm

/-- The payload of a typed declaration is JSON of depth five. -/
theorem isJson_fields (h : TypedDeclaration.isTyped d = true) :
    Json.IsJson 5 (.table (fields d)) := by
  refine .table (distinct_of_keys (keys_fields d)) (worded_of_keys (keys_fields d)) ?_
  rw [← fields_item]
  exact Item.hasJsonFields_of_isTyped ((isTyped_item d).trans h)

end Declaration

end BindGen

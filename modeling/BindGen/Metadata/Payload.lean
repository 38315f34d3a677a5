import BindGen.Metadata.Item

/-!
# Payloads

The table form of metadata items. `Item.payload` writes an item as a table with all its fields and
its kind; `Item.ofPayload` reads one and refuses unknown kinds, unexpected or missing keys, and
lists of the wrong shape. The names and types of arguments, fields and variants become texts when
they are read.
-/

namespace BindGen

/-- Why a payload is no item. -/
inductive PayloadError where
  | unknownKind (given : Value)
  | notTable (kind : Kind)
  | unexpectedKeys (kind : Kind) (keys : List String)
  | missingKeys (kind : Kind) (keys : List String)
  | notList (given : String)
  | fault (f : Fault)

namespace Kind

/-- The name of a kind in messages. -/
def label : Kind → String
  | namespaceDecl => "NamespaceMetadata"
  | udlFile => "UdlFileMetadata"
  | function => "FnMetadata"
  | constructor => "ConstructorMetadata"
  | method => "MethodMetadata"
  | record => "RecordMetadata"
  | enum => "EnumMetadata"
  | object => "ObjectMetadata"
  | callbackInterface => "CallbackInterfaceMetadata"
  | customType => "CustomTypeMetadata"

/-- The keys that a payload of the kind must have, in the order in which they are reported. -/
def requiredKeys : Kind → List String
  | namespaceDecl => ["crate_name", "name"]
  | udlFile => ["module_path", "namespace", "file_stub"]
  | function => ["module_path", "name"]
  | constructor => ["module_path", "self_name", "name"]
  | method => ["module_path", "self_name", "name"]
  | record => ["module_path", "name"]
  | enum => ["module_path", "name"]
  | object => ["module_path", "name"]
  | callbackInterface => ["module_path", "name"]
  | customType => ["module_path", "name", "builtin"]

/-- The keys that a payload of the kind may have besides. -/
def optionalKeys : Kind → List String
  | namespaceDecl => []
  | udlFile => []
  | function => ["inputs", "return_type", "throws", "is_async", "docstring"]
  | constructor => ["inputs", "throws", "docstring"]
  | method => ["inputs", "return_type", "throws", "is_async", "docstring"]
  | record => ["fields", "docstring"]
  | enum => ["variants", "is_error", "docstring"]
  | object => ["docstring"]
  | callbackInterface => ["methods", "docstring"]
  | customType => []

/-- The keys of payloads of the kind. -/
def keys (k : Kind) : List String := k.requiredKeys ++ k.optionalKeys

end Kind

namespace PayloadError

/-- Names in quotes, with commas and a final conjunction. -/
def enumerate : List String → String
  | [] => ""
  | [a] => "'" ++ a ++ "'"
  | [a, b] => "'" ++ a ++ "' and '" ++ b ++ "'"
  | names =>
    let quoted := names.map fun a => "'" ++ a ++ "'"
    ", ".intercalate quoted.dropLast ++ ", and " ++ quoted.getLastD ""

/-- The wording of a payload error. -/
def message : PayloadError → String
  | unknownKind given => s!"unknown metadata kind {given.quoted}"
  | notTable kind => s!"{kind.label} payload must be an object"
  | unexpectedKeys kind keys => s!"{kind.label} got unexpected keys: " ++ ", ".intercalate keys
  | missingKeys kind keys =>
    let plural := if keys.length = 1 then "" else "s"
    s!"{kind.label}: {kind.label}.__init__() missing {keys.length} required positional "
      ++ s!"argument{plural}: {enumerate keys}"
  | notList given => s!"expected a list, got {given}"
  | fault f => f.message

end PayloadError

private def orFault {α : Type} (x : Except Fault α) : Except PayloadError α :=
  x.mapError .fault

/-- The items of a list value. Models `_as_list`. -/
def Value.listItems (v : Value) : Except PayloadError (List Value) :=
  match v with
  | .list items => .ok items
  | .pair a b => .ok [a, b]
  | v => .error (.notList v.typeName)

namespace Field

/-- The field that a part of a payload tells of. -/
def ofPayload (v : Value) : Except PayloadError Field := do
  let name ← orFault (v.part "name")
  let type ← orFault (v.part "type")
  return ⟨name.wording, type.wording⟩

/-- The fields of a list of payloads. Models `_field_tuple`. -/
def listOfPayload (v : Value) : Except PayloadError (List Field) := do
  (← v.listItems).mapM ofPayload

/-- The part of a payload that tells of a field. -/
def payload (f : Field) : Value := .table [("name", f.name.value), ("type", f.type.value)]

end Field

namespace Variant

/-- The variant that a part of a payload tells of. Fields that are left out are none. -/
def ofPayload (v : Value) : Except PayloadError Variant := do
  let name ← orFault (v.part "name")
  let fields ← match v with
    | .table entries => match Table.find? entries "fields" with
      | some given => Field.listOfPayload given
      | none => pure []
    | _ => pure []
  return ⟨name.wording, fields⟩

/-- The variants that a list in a payload tells of. -/
def listOfPayload (v : Value) : Except PayloadError (List Variant) := do
  (← v.listItems).mapM ofPayload

/-- The part of a payload that tells of a variant. -/
def payload (v : Variant) : Value :=
  .table [("name", v.name.value), ("fields", .list (v.fields.map Field.payload))]

end Variant

namespace Payload

/-- The scalar field under a key, or null. -/
def field (values : Table Value) (key : String) : Value := (Table.find? values key).getD .null

/-- The flag under a key, or false. -/
def flag (values : Table Value) (key : String) : Value := (Table.find? values key).getD (.bool false)

/-- The list under a key, or none of it. -/
def listUnder {α : Type} (values : Table Value) (key : String)
    (read : Value → Except PayloadError (List α)) : Except PayloadError (List α) :=
  match Table.find? values key with
  | some v => read v
  | none => .ok []

/-- Refuses keys that the kind does not have. -/
def checkKeys (kind : Kind) (values : Table Value) : Except PayloadError Unit :=
  let unexpected := (Table.keys values).filter fun k => !(kind.keys.any fun known => k.same known)
  if unexpected.isEmpty then .ok ()
  else .error (.unexpectedKeys kind ((unexpected.mergeSort Scalar.le).map Scalar.display))

/-- Refuses a payload without the keys that the kind requires. -/
def checkRequired (kind : Kind) (values : Table Value) : Except PayloadError Unit :=
  let missing := kind.requiredKeys.filter fun (k : String) => !Table.has values (.text k)
  if missing.isEmpty then .ok () else .error (.missingKeys kind missing)

end Payload

open Payload

namespace FunctionDecl

/-- The function of a table without a kind. -/
def ofFields (values : Table Value) : Except PayloadError FunctionDecl := do
  checkKeys .function values
  let inputs ← listUnder values "inputs" Field.listOfPayload
  checkRequired .function values
  return {
    modulePath := field values "module_path"
    name := field values "name"
    inputs
    returnType := field values "return_type"
    throws := field values "throws"
    isAsync := flag values "is_async"
    docstring := field values "docstring" }

/-- The function of a payload without a kind. -/
def ofPayload : Value → Except PayloadError FunctionDecl
  | .table values => ofFields values
  | _ => .error (.notTable .function)

/-- The functions that a list in a payload tells of. -/
def listOfPayload (v : Value) : Except PayloadError (List FunctionDecl) := do
  (← v.listItems).mapM ofPayload

end FunctionDecl

namespace Item

/-- The item of the given kind whose fields a table holds. Models `_build`. -/
def ofFields (kind : Kind) (values : Table Value) : Except PayloadError Item :=
  let modulePath := field values "module_path"
  let name := field values "name"
  let docstring := field values "docstring"
  match kind with
  | .function => return .function (← FunctionDecl.ofFields values)
  | .namespaceDecl => do
    checkKeys kind values
    checkRequired kind values
    return .namespaceDecl { crateName := field values "crate_name", name }
  | .udlFile => do
    checkKeys kind values
    checkRequired kind values
    let namespaceName := field values "namespace"
    return .udlFile { modulePath, namespaceName, fileStub := field values "file_stub" }
  | .constructor => do
    checkKeys kind values
    let inputs ← listUnder values "inputs" Field.listOfPayload
    checkRequired kind values
    let selfName := field values "self_name"
    return .constructor
      { modulePath, selfName, name, inputs, throws := field values "throws", docstring }
  | .method => do
    checkKeys kind values
    let inputs ← listUnder values "inputs" Field.listOfPayload
    checkRequired kind values
    let selfName := field values "self_name"
    let returnType := field values "return_type"
    let throws := field values "throws"
    let isAsync := flag values "is_async"
    return .method { modulePath, selfName, name, inputs, returnType, throws, isAsync, docstring }
  | .record => do
    checkKeys kind values
    let fields ← listUnder values "fields" Field.listOfPayload
    checkRequired kind values
    return .record { modulePath, name, fields, docstring }
  | .enum => do
    checkKeys kind values
    let variants ← listUnder values "variants" Variant.listOfPayload
    checkRequired kind values
    return .enum { modulePath, name, variants, isError := flag values "is_error", docstring }
  | .object => do
    checkKeys kind values
    checkRequired kind values
    return .object { modulePath, name, docstring }
  | .callbackInterface => do
    checkKeys kind values
    let methods ← listUnder values "methods" FunctionDecl.listOfPayload
    checkRequired kind values
    return .callbackInterface { modulePath, name, methods, docstring }
  | .customType => do
    checkKeys kind values
    checkRequired kind values
    return .customType { modulePath, name, builtin := field values "builtin" }

/-- The item that a payload describes. Models `record_from_dict`. -/
def ofPayload (payload : Table Value) : Except PayloadError Item :=
  let given := (Table.find? payload "kind").getD .null
  match given.text?.bind Kind.ofTag? with
  | some kind => ofFields kind (Table.remove payload "kind")
  | none => .error (.unknownKind given)

end Item

private def fieldList (fields : List Field) : Value := .list (fields.map Field.payload)

/-- The entries of a namespace's payload. -/
def NamespaceDecl.fields (d : NamespaceDecl) : Table Value :=
  [("crate_name", d.crateName), ("name", d.name)]

/-- The entries of a definition file's payload. -/
def UdlFileDecl.fields (d : UdlFileDecl) : Table Value :=
  [("module_path", d.modulePath), ("namespace", d.namespaceName), ("file_stub", d.fileStub)]

/-- The entries of a function's payload. -/
def FunctionDecl.fields (d : FunctionDecl) : Table Value :=
  [("module_path", d.modulePath), ("name", d.name), ("inputs", fieldList d.inputs),
    ("return_type", d.returnType), ("throws", d.throws), ("is_async", d.isAsync),
    ("docstring", d.docstring)]

/-- The entries of a constructor's payload. -/
def ConstructorDecl.fields (d : ConstructorDecl) : Table Value :=
  [("module_path", d.modulePath), ("self_name", d.selfName), ("name", d.name),
    ("inputs", fieldList d.inputs), ("throws", d.throws), ("docstring", d.docstring)]

/-- The entries of a method's payload. -/
def MethodDecl.fields (d : MethodDecl) : Table Value :=
  [("module_path", d.modulePath), ("self_name", d.selfName), ("name", d.name),
    ("inputs", fieldList d.inputs), ("return_type", d.returnType), ("throws", d.throws),
    ("is_async", d.isAsync), ("docstring", d.docstring)]

/-- The entries of a record's payload. -/
def RecordDecl.payloadFields (d : RecordDecl) : Table Value :=
  [("module_path", d.modulePath), ("name", d.name), ("fields", fieldList d.fields),
    ("docstring", d.docstring)]

/-- The entries of an enum's payload. -/
def EnumDecl.fields (d : EnumDecl) : Table Value :=
  [("module_path", d.modulePath), ("name", d.name),
    ("variants", .list (d.variants.map Variant.payload)), ("is_error", d.isError),
    ("docstring", d.docstring)]

/-- The entries of an object's payload. -/
def ObjectDecl.fields (d : ObjectDecl) : Table Value :=
  [("module_path", d.modulePath), ("name", d.name), ("docstring", d.docstring)]

/-- The entries of a callback interface's payload. -/
def CallbackInterfaceDecl.fields (d : CallbackInterfaceDecl) : Table Value :=
  [("module_path", d.modulePath), ("name", d.name),
    ("methods", .list (d.methods.map fun m => .table m.fields)), ("docstring", d.docstring)]

/-- The entries of a custom type's payload. -/
def CustomTypeDecl.fields (d : CustomTypeDecl) : Table Value :=
  [("module_path", d.modulePath), ("name", d.name), ("builtin", d.builtin)]

namespace Item

/-- The fields of an item, all of them. -/
def fields : Item → Table Value
  | namespaceDecl d => d.fields
  | udlFile d => d.fields
  | function d => d.fields
  | constructor d => d.fields
  | method d => d.fields
  | record d => d.payloadFields
  | enum d => d.fields
  | object d => d.fields
  | callbackInterface d => d.fields
  | customType d => d.fields

/-- The table of an item's fields and its kind. Models `record_to_dict`. -/
def payload (item : Item) : Table Value := item.fields ++ [(.text "kind", .text item.kind.tag)]

end Item
end BindGen

import BindGen.Interface.Declaration
import BindGen.Metadata.Group

/-!
# Interfaces

The surface of one crate, independent of any language: tables of declarations by name. Groups are
folded into an interface one after the other. Within a group the kinds come in a fixed order, so
that members never precede their object; a name declared twice has to agree with itself, and a
member has to belong to a known object.
-/

namespace BindGen

/-- An object with its members. Models `ObjectDefinition`. -/
structure ObjectDefinition where
  declaration : ObjectDecl
  constructors : Table ConstructorDecl
  methods : Table MethodDecl

namespace ObjectDefinition

/-- The name that the object's declaration gives. -/
def name (o : ObjectDefinition) : Value := o.declaration.name

end ObjectDefinition

/-- The surface of a crate. Models `ComponentInterface`. -/
structure Interface where
  namespaceName : Value
  crateName : Value
  functions : Table FunctionDecl
  objects : Table ObjectDefinition
  records : Table RecordDecl
  enums : Table EnumDecl
  callbackInterfaces : Table CallbackInterfaceDecl
  customTypes : Table CustomTypeDecl

/-- Why an item does not fit into an interface. -/
inductive ConflictError where
  | namespaceMismatch (crate existing incoming : Value)
  | unknownObject (member object : String)
  | conflicting (label : String)
  | fault (f : Fault)

namespace ConflictError

/-- The wording of an error. -/
def message : ConflictError → String
  | namespaceMismatch crate existing incoming =>
    s!"Namespace mismatch for crate {crate.display}: {existing.display} vs {incoming.display}"
  | unknownObject member object => s!"{member} declared for unknown object {object}"
  | conflicting label => s!"Conflicting definitions for {label}"
  | fault f => f.message

end ConflictError

namespace Interface

/-- The interface without declarations, which takes its names from the first group. -/
def empty : Interface where
  namespaceName := .null
  crateName := .null
  functions := []
  objects := []
  records := []
  enums := []
  callbackInterfaces := []
  customTypes := []

/-- A fault of a value, as an error of the fold. -/
def orFault {α : Type} (x : Except Fault α) : Except ConflictError α := x.mapError .fault

/-- Declares a name in a table. Models `ComponentInterface._declare`. -/
def declare {α : Type} [Declaration α] (table : Table α) (name : Value) (d : α) (label : String) :
    Except ConflictError (Table α) := do
  let key ← orFault name.asKey
  match Table.find? table key with
  | none => return Table.put table key d
  | some existing =>
    match Declaration.merge? existing d with
    | some merged => return Table.put table key merged
    | none => throw (.conflicting (label ++ name.display))

/-- The object that a member belongs to, and its key. Models `ComponentInterface._object_for`. -/
def owner (i : Interface) (selfName : Value) (member : String) :
    Except ConflictError (Scalar × ObjectDefinition) := do
  let key ← orFault selfName.asKey
  match Table.find? i.objects key with
  | some o => return (key, o)
  | none => throw (.unknownObject member selfName.display)

/-- Adds the declaration of an object; members of an object declared before are kept. -/
def declareObject (objects : Table ObjectDefinition) (d : ObjectDecl) :
    Except ConflictError (Table ObjectDefinition) := do
  let key ← orFault d.name.asKey
  match Table.find? objects key with
  | none => return Table.put objects key ⟨d, [], []⟩
  | some existing =>
    match Declaration.merge? existing.declaration d with
    | some merged => return Table.put objects key { existing with declaration := merged }
    | none => throw (.conflicting ("object " ++ d.name.display))

/-- The interface with an item added. Namespaces and file references declare nothing. Models
`ComponentInterface.add_item`. -/
def addItem (i : Interface) (item : Item) : Except ConflictError Interface :=
  match item with
  | .namespaceDecl _ => .ok i
  | .udlFile _ => .ok i
  | .function d => do
    return { i with functions := ← declare i.functions d.name d "function " }
  | .record d => do
    return { i with records := ← declare i.records d.name d "record " }
  | .enum d => do
    return { i with enums := ← declare i.enums d.name d "enum " }
  | .callbackInterface d => do
    let table ← declare i.callbackInterfaces d.name d "callback interface "
    return { i with callbackInterfaces := table }
  | .customType d => do
    return { i with customTypes := ← declare i.customTypes d.name d "custom type " }
  | .object d => do
    return { i with objects := ← declareObject i.objects d }
  | .constructor d => do
    let (key, o) ← i.owner d.selfName ("constructor " ++ d.name.display)
    let label := "constructor " ++ d.selfName.display ++ "."
    let constructors ← declare o.constructors d.name d label
    return { i with objects := Table.put i.objects key { o with constructors } }
  | .method d => do
    let (key, o) ← i.owner d.selfName ("method " ++ d.name.display)
    let label := "method " ++ d.selfName.display ++ "."
    let methods ← declare o.methods d.name d label
    return { i with objects := Table.put i.objects key { o with methods } }

/-- The order in which the kinds of a group are folded. Models `_FOLD_ORDER`. -/
def foldOrder : List Kind :=
  [.customType, .record, .enum, .object, .callbackInterface, .function, .constructor, .method]

/-- The items of a group in the order in which they are folded. -/
def inFoldOrder (items : List Item) : List Item :=
  foldOrder.flatMap fun kind => items.filter (·.kind == kind)

/-- Takes the names of a first group; later groups have to be of the same namespace. Models
`ComponentInterface._set_namespace`. -/
def setNamespace (i : Interface) (d : NamespaceDecl) : Except ConflictError Interface :=
  if i.namespaceName.isNull then .ok { i with namespaceName := d.name, crateName := d.crateName }
  else if i.namespaceName.equals d.name then .ok i
  else .error (.namespaceMismatch d.crateName i.namespaceName d.name)

/-- Adds items one by one: the interface reached, and the error that stopped it. -/
def addItems (i : Interface) : List Item → Interface × Option ConflictError
  | [] => (i, none)
  | item :: rest =>
    match i.addItem item with
    | .ok next => addItems next rest
    | .error e => (i, some e)

/-- Folds a group: the interface reached, and the error that stopped it. Models
`ComponentInterface.add_metadata`. -/
def addGroup (i : Interface) (g : Group) : Interface × Option ConflictError :=
  match i.setNamespace g.declared with
  | .ok named => named.addItems (inFoldOrder g.items)
  | .error e => (i, some e)

/-- Folds a group that has to fit. -/
def fold (i : Interface) (g : Group) : Except ConflictError Interface :=
  match i.addGroup g with
  | (result, none) => .ok result
  | (_, some e) => .error e

/-- Whether nothing is declared. Models `ComponentInterface.is_empty`. -/
def isEmpty (i : Interface) : Bool :=
  i.functions.isEmpty && i.objects.isEmpty && i.records.isEmpty && i.enums.isEmpty
    && i.callbackInterfaces.isEmpty && i.customTypes.isEmpty

/-- The names of the enums that are errors, in order. Models `ComponentInterface.error_names`. -/
def errorNames (i : Interface) : Except Fault (List Scalar) :=
  sortByKey id ((i.enums.filter fun (_, d) => d.isError.isTruthy).map (·.1))

end Interface
end BindGen

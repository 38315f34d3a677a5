import BindGen.Interface.Content
import BindGen.Text.Case

/-!
# Outlines

What a template shows of an interface and of the settings: the declarations of every kind in the
order of their names, and the keys that appear in generated text.
-/

namespace BindGen

/-- The content of a generated text, independent of the language. -/
structure Outline where
  crateName : Value
  checksum : String
  moduleName : String
  packageName : String
  cdylibName : Value
  externalModules : Table Value
  /-- whether docstrings and blank lines are left out -/
  compact : Bool
  functions : List FunctionDecl
  records : List RecordDecl
  enums : List EnumDecl
  objects : List ObjectDefinition
  callbackInterfaces : List CallbackInterfaceDecl
  customTypes : List CustomTypeDecl

namespace Outline

/-- The name of the module to generate: the one that is set, else the namespace, else the crate.
Models `TemplateEmitter.module_name`. -/
def moduleNameOf (i : Interface) (settings : Table Value) : Except Fault String :=
  let set := (Table.find? settings "module_name").getD .null
  ((set.orElse i.namespaceName).orElse i.crateName).shown

/-- The declarations of a table in the order of their names. -/
def inOrder {α : Type} (t : Table α) : Except Fault (List α) := do
  return Table.values (← Interface.sorted t)

/-- The outline of an interface under the settings of a language. Models
`TemplateEmitter.build_context`. -/
def ofInterface (i : Interface) (settings : Table Value) (packageName : Except Fault String) :
    Except Fault Outline := do
  let moduleName ← moduleNameOf i settings
  let checksum ← i.checksum
  return {
    crateName := i.crateName
    checksum
    moduleName
    cdylibName := (Table.find? settings "cdylib_name").getD .null
    externalModules := ((Table.find? settings "external_modules").bind Value.table?).getD []
    compact := ((Table.find? settings "render_style").getD .null).same "compact"
    functions := ← inOrder i.functions
    records := ← inOrder i.records
    enums := ← inOrder i.enums
    objects := ← inOrder i.objects
    callbackInterfaces := ← inOrder i.callbackInterfaces
    customTypes := ← inOrder i.customTypes
    packageName := ← packageName }

/-- A scalar with the case of a text disregarded. -/
def foldCase : Scalar → Scalar
  | .text s => .text (String.ofList (Text.lower s.toList))
  | .broken t => (t.mapRuns Text.lower).scalar
  | s => s

/-- Members in the order of their names, whose case is disregarded; ties keep their places. -/
def membersInOrder {α : Type} (name : α → Value) (members : Table α) : Except Fault (List α) :=
  sortByKey (fun d => foldCase ((name d).scalar?.getD .null)) (Table.values members)

/-- The constructors of an object in order. -/
def constructorsOf (o : ObjectDefinition) : Except Fault (List ConstructorDecl) :=
  membersInOrder ConstructorDecl.name o.constructors

/-- The methods of an object in order. -/
def methodsOf (o : ObjectDefinition) : Except Fault (List MethodDecl) :=
  membersInOrder MethodDecl.name o.methods

/-- The modules of other crates, in the order of the crates. -/
def externalsInOrder (o : Outline) : Except Fault (Table Value) :=
  sortByKey (fun e => foldCase e.1) o.externalModules

end Outline
end BindGen

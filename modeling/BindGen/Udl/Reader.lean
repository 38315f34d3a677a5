import BindGen.Metadata.Group
import BindGen.Text.Lines
import BindGen.Udl.Definition

/-!
# Reading interface definitions

An interface definition file declares one namespace and any number of dictionaries, enums,
interfaces, callback interfaces and type aliases. Reading it gives a group of items in the order of
the file; the members of an interface follow their object. Every error but a missing namespace names
the line of the construct it is about.
-/

namespace BindGen

/-- Why a text is no interface definition. Models `UdlParseError`. -/
inductive UdlError where
  | expectedDefinition (line : Nat)
  | missingNamespace
  | duplicateNamespace (name earlier : String) (line : Nat)
  | invalidFunction (member : String) (line : Nat)
  | invalidField (member : String) (line : Nat)
  | missingSemicolon (line : Nat)
  | invalidVariant (text : String) (line : Nat)
deriving DecidableEq

namespace UdlError

/-- The line of the construct that an error is about. -/
def line? : UdlError → Option Nat
  | expectedDefinition line => some line
  | missingNamespace => none
  | duplicateNamespace _ _ line => some line
  | invalidFunction _ line => some line
  | invalidField _ line => some line
  | missingSemicolon line => some line
  | invalidVariant _ line => some line

/-- The wording of an error without its line. -/
def description : UdlError → String
  | expectedDefinition _ => "expected a definition"
  | missingNamespace => "missing namespace definition"
  | duplicateNamespace name earlier _ => s!"duplicate namespace {name} (already {earlier})"
  | invalidFunction member _ => s!"invalid function declaration `{member}`"
  | invalidField member _ => s!"invalid field `{member}`"
  | missingSemicolon _ => "missing ';' after member"
  | invalidVariant text _ => s!"invalid enum variant `{text}`"

/-- The wording of an error. -/
def message (e : UdlError) : String :=
  match e.line? with
  | some line => s!"line {line}: {e.description}"
  | none => e.description

end UdlError

namespace Udl

open Text

/-- The text with every comment, from two slashes to the end of the line, blanked out. Models
`_COMMENT`. -/
def blankComments (inComment : Bool) : List Char → List Char
  | [] => []
  | '\n' :: rest => '\n' :: blankComments false rest
  | c :: rest =>
    let starts := c == '/' && rest.head? == some '/'
    if inComment || starts then ' ' :: blankComments true rest else c :: blankComments false rest

/-- The line on which an offset lies, counted from one. Models `_Parser._line`. -/
def lineAt (source : List Char) (offset : Nat) : Nat := lineFeeds (source.take offset) + 1

/-- The field of a text that a member on the given line holds. Models `_Parser._field`. -/
def readField (line : Nat) (text : List Char) : Except UdlError Field :=
  match field? text with
  | some typed => .ok ⟨String.ofList typed.name, String.ofList typed.type⟩
  | none => .error (.invalidField (String.ofList text) line)

/-- A result type; `void` stands for none. Models `_return_type`. -/
def resultType (type : List Char) : Value :=
  if type = "void".toList then .null else .text (String.ofList type)

/-- The function that a member writes. Models `_Parser._function`. -/
def readFunction (crate : Value) (line : Nat) (member : List Char) :
    Except UdlError FunctionDecl := do
  let some found := callable? member | throw (.invalidFunction (String.ofList member) line)
  let inputs ← (argumentTexts found.arguments).mapM (readField line)
  return {
    modulePath := crate
    name := .text (String.ofList found.name)
    inputs
    returnType := resultType found.result
    throws := Value.ofText? (found.attributes.value? "Throws")
    isAsync := .bool (found.attributes.has "Async")
    docstring := .null }

/-- The constructor or method that a member of an interface writes. Models
`_Parser._object_member`. -/
def readObjectMember (crate : Value) (object : String) (line : Nat) (member : List Char) :
    Except UdlError Item :=
  match constructor? member with
  | some found => do
    let inputs ← (argumentTexts found.arguments).mapM (readField line)
    let given := (found.attributes.value? "Name").getD ""
    let name := if given.isEmpty then "new" else given
    let throws := Value.ofText? (found.attributes.value? "Throws")
    return .constructor
      { modulePath := crate, selfName := object, name, inputs, throws, docstring := .null }
  | none => do
    let f ← readFunction crate line member
    return .method
      { modulePath := crate, selfName := object, name := f.name, inputs := f.inputs,
        returnType := f.returnType, throws := f.throws, isAsync := f.isAsync, docstring := .null }

/-- The variants that the body of an enum writes. Models `_Parser._variants`. -/
def readVariants (line : Nat) (body : List Char) : Except UdlError (List Variant) :=
  (((cut (· == ',') body).map trim).filter (· != [])).mapM fun part =>
    match variantName? part with
    | some name => .ok ⟨String.ofList name, []⟩
    | none => .error (.invalidVariant (String.ofList part) line)

/-- The members of a body that starts at the offset, with the line of each. Models
`_Parser._members`. -/
def readMembers (source : List Char) (offset : Nat) (body : List Char) :
    Except UdlError (List (List Char × Nat)) :=
  let found := (members offset body).map fun m => (m.text, lineAt source m.offset)
  match isTerminated body, found.getLast? with
  | false, some (_, line) => .error (.missingSemicolon line)
  | _, _ => .ok found

/-- The items of a definition with a body. Models `_Parser._definition`. -/
def readBlock (source : List Char) (crate : Value) (b : Block) : Except UdlError (List Item) := do
  let bodyOffset := source.length - b.fromBody
  let name := String.ofList b.name
  match b.keyword with
  | .namespaceDecl =>
    let found ← readMembers source bodyOffset b.body
    found.mapM fun (member, line) => do return .function (← readFunction crate line member)
  | .dictionary =>
    let found ← readMembers source bodyOffset b.body
    let fields ← found.mapM fun (member, line) => readField line member
    return [.record { modulePath := crate, name, fields, docstring := .null }]
  | .enum =>
    let variants ← readVariants (lineAt source bodyOffset) b.body
    let isError := .bool (b.attributes.has "Error")
    return [.enum { modulePath := crate, name, variants, isError, docstring := .null }]
  | .interface =>
    let found ← readMembers source bodyOffset b.body
    let items ← found.mapM fun (member, line) => readObjectMember crate name line member
    return .object { modulePath := crate, name, docstring := .null } :: items
  | .callbackInterface =>
    let found ← readMembers source bodyOffset b.body
    let methods ← found.mapM fun (member, line) => readFunction crate line member
    return [.callbackInterface { modulePath := crate, name, methods, docstring := .null }]

/-- What has been read of a file: the namespace, and the items in reverse order of their
definitions. -/
structure Progress where
  declared : Option String
  items : List (List Item)

/-- The namespace after a definition with a body; a second one is refused. -/
def declare (source : List Char) (b : Block) (declared : Option String) :
    Except UdlError (Option String) :=
  match b.keyword, declared with
  | .namespaceDecl, some earlier =>
    let line := lineAt source (source.length - b.fromName)
    .error (.duplicateNamespace (String.ofList b.name) earlier line)
  | .namespaceDecl, none => .ok (some (String.ofList b.name))
  | _, declared => .ok declared

/-- Reads the definitions from a place in the source on. Models `_Parser.parse`. -/
def readFrom (source : List Char) (crate : Value) (progress : Progress) (s : List Char) :
    Except UdlError Progress :=
  if allBlank s then .ok progress
  else
    match _h : block? s with
    | some (b, rest) => do
      let declared ← declare source b progress.declared
      let items ← readBlock source crate b
      readFrom source crate ⟨declared, items :: progress.items⟩ rest
    | none =>
      match _h : alias? s with
      | some (a, rest) =>
        let item := .customType
          { modulePath := crate, name := .text (String.ofList a.name),
            builtin := .text (String.ofList a.builtin) }
        readFrom source crate ⟨progress.declared, [item] :: progress.items⟩ rest
      | none => .error (.expectedDefinition (lineAt source (source.length - (trimLeft s).length)))
termination_by s.length
decreasing_by
  · exact block?_length _h
  · exact alias?_length _h

/-- The group that an interface definition file declares for a crate. Models `parse_udl`. -/
def read (text : String) (crate : Value) : Except UdlError Group := do
  let source := blankComments false text.toList
  let progress ← readFrom source crate ⟨none, []⟩ source
  match progress.declared with
  | some name => return ⟨⟨crate, name⟩, progress.items.reverse.flatten⟩
  | none => throw .missingNamespace

end Udl
end BindGen

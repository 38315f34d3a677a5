import BindGen.Value.Fault

/-!
# Metadata items

The declarations that describe the interface surface of a crate. An item is found in a compiled
library or in an interface definition file; both give the same shapes. Names, paths and other scalar
fields hold whatever value the payload had; arguments, fields and variants hold texts, broken ones
among them.
-/

namespace BindGen

/-- A named, typed slot: an argument, a record field or a variant field. Models `FieldMetadata`. -/
structure Field where
  name : LooseText
  type : LooseText
deriving DecidableEq

/-- One alternative of an enum. Models `VariantMetadata`. -/
structure Variant where
  name : LooseText
  fields : List Field
deriving DecidableEq

/-- The namespace that a crate exports. Models `NamespaceMetadata`. -/
structure NamespaceDecl where
  crateName : Value
  name : Value

/-- A crate whose interface starts from an interface definition file with the given stem. Models
`UdlFileMetadata`. -/
structure UdlFileDecl where
  modulePath : Value
  namespaceName : Value
  fileStub : Value

/-- A free function, or a method of a callback interface. Models `FnMetadata`. -/
structure FunctionDecl where
  modulePath : Value
  name : Value
  inputs : List Field
  returnType : Value
  throws : Value
  isAsync : Value
  docstring : Value

/-- A constructor, with the object it makes. Models `ConstructorMetadata`. -/
structure ConstructorDecl where
  modulePath : Value
  selfName : Value
  name : Value
  inputs : List Field
  throws : Value
  docstring : Value

/-- A method, with the object it belongs to. Models `MethodMetadata`. -/
structure MethodDecl where
  modulePath : Value
  selfName : Value
  name : Value
  inputs : List Field
  returnType : Value
  throws : Value
  isAsync : Value
  docstring : Value

/-- A record with its fields. Models `RecordMetadata`. -/
structure RecordDecl where
  modulePath : Value
  name : Value
  fields : List Field
  docstring : Value

/-- An enum with its variants, which may stand for an error. Models `EnumMetadata`. -/
structure EnumDecl where
  modulePath : Value
  name : Value
  variants : List Variant
  isError : Value
  docstring : Value

/-- An object. Its constructors and methods are items of their own. Models `ObjectMetadata`. -/
structure ObjectDecl where
  modulePath : Value
  name : Value
  docstring : Value

/-- A callback interface with its methods. Models `CallbackInterfaceMetadata`. -/
structure CallbackInterfaceDecl where
  modulePath : Value
  name : Value
  methods : List FunctionDecl
  docstring : Value

/-- Another name for a built-in type. Models `CustomTypeMetadata`. -/
structure CustomTypeDecl where
  modulePath : Value
  name : Value
  builtin : Value

/-- A metadata item. Models `Metadata`. -/
inductive Item where
  | namespaceDecl (d : NamespaceDecl)
  | udlFile (d : UdlFileDecl)
  | function (d : FunctionDecl)
  | constructor (d : ConstructorDecl)
  | method (d : MethodDecl)
  | record (d : RecordDecl)
  | enum (d : EnumDecl)
  | object (d : ObjectDecl)
  | callbackInterface (d : CallbackInterfaceDecl)
  | customType (d : CustomTypeDecl)

/-- The kinds of items. Models `RECORD_KINDS`. -/
inductive Kind where
  | namespaceDecl
  | udlFile
  | function
  | constructor
  | method
  | record
  | enum
  | object
  | callbackInterface
  | customType
deriving DecidableEq

namespace Kind

/-- All kinds. -/
def all : List Kind :=
  [namespaceDecl, udlFile, function, constructor, method, record, enum, object, callbackInterface,
    customType]

/-- The tag of a kind in payloads. -/
def tag : Kind → String
  | namespaceDecl => "namespace"
  | udlFile => "udl_file"
  | function => "function"
  | constructor => "constructor"
  | method => "method"
  | record => "record"
  | enum => "enum"
  | object => "object"
  | callbackInterface => "callback_interface"
  | customType => "custom_type"

/-- The kind with a tag. -/
def ofTag? (s : String) : Option Kind := all.find? (·.tag == s)

/-- Reading a tag gives its kind. -/
theorem ofTag?_tag (k : Kind) : ofTag? k.tag = some k := by cases k <;> decide

end Kind

namespace FunctionDecl

/-- Whether two functions have the same content. -/
def same (a b : FunctionDecl) : Bool :=
  a.modulePath.same b.modulePath && a.name.same b.name && a.inputs = b.inputs
    && a.returnType.same b.returnType && a.throws.same b.throws && a.isAsync.same b.isAsync
    && a.docstring.same b.docstring

/-- Whether two lists of functions have the same content, place by place. -/
def sameList : List FunctionDecl → List FunctionDecl → Bool
  | [], [] => true
  | a :: as, b :: bs => a.same b && sameList as bs
  | _, _ => false

end FunctionDecl

/-- Whether two namespaces are the same part by part. -/
def NamespaceDecl.same (a b : NamespaceDecl) : Bool :=
  a.crateName.same b.crateName && a.name.same b.name

/-- Whether two declarations of a definition file are the same part by part. -/
def UdlFileDecl.same (a b : UdlFileDecl) : Bool :=
  a.modulePath.same b.modulePath && a.namespaceName.same b.namespaceName
    && a.fileStub.same b.fileStub

/-- Whether two constructors are the same part by part. -/
def ConstructorDecl.same (a b : ConstructorDecl) : Bool :=
  a.modulePath.same b.modulePath && a.selfName.same b.selfName && a.name.same b.name
    && a.inputs = b.inputs && a.throws.same b.throws && a.docstring.same b.docstring

/-- Whether two methods are the same part by part. -/
def MethodDecl.same (a b : MethodDecl) : Bool :=
  a.modulePath.same b.modulePath && a.selfName.same b.selfName && a.name.same b.name
    && a.inputs = b.inputs && a.returnType.same b.returnType && a.throws.same b.throws
    && a.isAsync.same b.isAsync && a.docstring.same b.docstring

/-- Whether two records are the same part by part. -/
def RecordDecl.same (a b : RecordDecl) : Bool :=
  a.modulePath.same b.modulePath && a.name.same b.name && a.fields = b.fields
    && a.docstring.same b.docstring

/-- Whether two enums are the same part by part. -/
def EnumDecl.same (a b : EnumDecl) : Bool :=
  a.modulePath.same b.modulePath && a.name.same b.name && a.variants = b.variants
    && a.isError.same b.isError && a.docstring.same b.docstring

/-- Whether two objects are the same part by part. -/
def ObjectDecl.same (a b : ObjectDecl) : Bool :=
  a.modulePath.same b.modulePath && a.name.same b.name && a.docstring.same b.docstring

/-- Whether two callback interfaces are the same part by part. -/
def CallbackInterfaceDecl.same (a b : CallbackInterfaceDecl) : Bool :=
  a.modulePath.same b.modulePath && a.name.same b.name
    && FunctionDecl.sameList a.methods b.methods && a.docstring.same b.docstring

/-- Whether two custom types are the same part by part. -/
def CustomTypeDecl.same (a b : CustomTypeDecl) : Bool :=
  a.modulePath.same b.modulePath && a.name.same b.name && a.builtin.same b.builtin

namespace Item

/-- The kind of an item. Models `record_kind`. -/
def kind : Item → Kind
  | namespaceDecl _ => .namespaceDecl
  | udlFile _ => .udlFile
  | function _ => .function
  | constructor _ => .constructor
  | method _ => .method
  | record _ => .record
  | enum _ => .enum
  | object _ => .object
  | callbackInterface _ => .callbackInterface
  | customType _ => .customType

/-- Whether two items are of one kind and have the same content. -/
def same : Item → Item → Bool
  | namespaceDecl a, namespaceDecl b => a.same b
  | udlFile a, udlFile b => a.same b
  | function a, function b => a.same b
  | constructor a, constructor b => a.same b
  | method a, method b => a.same b
  | record a, record b => a.same b
  | enum a, enum b => a.same b
  | object a, object b => a.same b
  | callbackInterface a, callbackInterface b => a.same b
  | customType a, customType b => a.same b
  | _, _ => false

/-- The module path of an item other than a namespace. -/
def modulePath? : Item → Option Value
  | namespaceDecl _ => none
  | udlFile d => some d.modulePath
  | function d => some d.modulePath
  | constructor d => some d.modulePath
  | method d => some d.modulePath
  | record d => some d.modulePath
  | enum d => some d.modulePath
  | object d => some d.modulePath
  | callbackInterface d => some d.modulePath
  | customType d => some d.modulePath

end Item

/-- The first segment of a module path: what stands before the first two colons beside each
other. -/
def firstSegment {α : Type} [DecidableEq α] (colon : α) : List α → List α
  | [] => []
  | [a] => [a]
  | a :: b :: rest => if a = colon ∧ b = colon then [] else a :: firstSegment colon (b :: rest)

/-- The text of the crate that a module path leads into. -/
def crateOfText : LooseText → LooseText
  | .proper s => .proper (String.ofList (firstSegment ':' s.toList))
  | .broken t => .ofPoints (firstSegment (.ofChar ':') t.points)

/-- The crate of a module path. -/
def crateOfPath (path : Value) : Except Fault Value := do
  return (crateOfText (← path.asText "split")).value

namespace Item

/-- The crate that an item belongs to. Models `crate_name_of`. -/
def crateName : Item → Except Fault Value
  | namespaceDecl d => .ok d.crateName
  | udlFile d => crateOfPath d.modulePath
  | function d => crateOfPath d.modulePath
  | constructor d => crateOfPath d.modulePath
  | method d => crateOfPath d.modulePath
  | record d => crateOfPath d.modulePath
  | enum d => crateOfPath d.modulePath
  | object d => crateOfPath d.modulePath
  | callbackInterface d => crateOfPath d.modulePath
  | customType d => crateOfPath d.modulePath

private def memberText (selfName name : Value) : String :=
  if selfName.isTruthy then selfName.display ++ "." ++ name.display else name.display

/-- The words that name an item in messages. Models `_describe`. -/
def described : Item → String
  | namespaceDecl d => d.name.display
  | udlFile d => d.namespaceName.display
  | function d => d.name.display
  | constructor d => memberText d.selfName d.name
  | method d => memberText d.selfName d.name
  | record d => d.name.display
  | enum d => d.name.display
  | object d => d.name.display
  | callbackInterface d => d.name.display
  | customType d => d.name.display

end Item
end BindGen

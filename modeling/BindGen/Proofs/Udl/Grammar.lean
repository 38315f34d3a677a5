import BindGen.Proofs.Text.Pieces
import BindGen.Udl.Reader

/-!
# Interface definitions as trees

A document of the interface definition language: one namespace among any number of dictionaries,
enums, interfaces, callback interfaces and other names for types. Each part has its text, with
single blanks, a semicolon behind each member and a comma and a blank between arguments and between
variants, and what it declares for a crate. Only the blanks between definitions are free.

Names are words by construction, and a result type is never the word that stands for no result.
-/

namespace BindGen.Udl.Grammar

open Text

/-- A name: word characters, at least one. -/
structure Word where
  chars : List Char
  isWord : isWordText chars = true

namespace Word

/-- The word as a string. -/
def string (w : Word) : String := String.ofList w.chars

/-- The name of the attribute that marks an enum of errors. -/
def error : Word := ⟨"Error".toList, by decide⟩

/-- The name of the attribute that says which errors a callable throws. -/
def throws : Word := ⟨"Throws".toList, by decide⟩

/-- The name of the attribute that marks a callable as asynchronous. -/
def async : Word := ⟨"Async".toList, by decide⟩

/-- The name of the attribute that names a constructor. -/
def name : Word := ⟨"Name".toList, by decide⟩

/-- The word that stands for no result. -/
def void : Word := ⟨"void".toList, by decide⟩

/-- The keyword in front of another name for a type. -/
def typedef : Word := ⟨"typedef".toList, by decide⟩

/-- The word in front of the type of the items. -/
def sequence : Word := ⟨"sequence".toList, by decide⟩

/-- The word in front of the types of keys and values. -/
def record : Word := ⟨"record".toList, by decide⟩

end Word

/-- A type: a word, or made of other types. -/
inductive TypeTree where
  | word (w : Word)
  | optional (t : TypeTree)
  | sequence (t : TypeTree)
  | record (key value : TypeTree)

/-- A generic type with what it is applied to. -/
def angled (generic : Word) (inner : List Char) : List Char :=
  generic.chars ++ '<' :: (inner ++ ['>'])

/-- The type as it is written, one blank behind a comma. -/
def TypeTree.text : TypeTree → List Char
  | word w => w.chars
  | optional t => t.text ++ ['?']
  | sequence t => angled .sequence t.text
  | record key value => angled .record (key.text ++ ',' :: ' ' :: value.text)

/-- A result type that is written out. -/
def ResultType := { t : TypeTree // t.text ≠ Word.void.chars }

/-- A field of a dictionary, or an argument. -/
structure Field where
  type : TypeTree
  name : Word

namespace Field

/-- The field as it is written. -/
def text (f : Field) : List Char := f.type.text ++ ' ' :: f.name.chars

/-- The field as it is declared. -/
def declared (f : Field) : BindGen.Field := ⟨f.name.string, String.ofList f.type.text⟩

end Field

/-- An attribute in brackets, a word that may be given another one. -/
inductive Attribute where
  | flag (name : Word)
  | setting (name value : Word)

namespace Attribute

/-- The attribute as it is written. -/
def text : Attribute → List Char
  | flag name => name.chars
  | setting name value => name.chars ++ '=' :: value.chars

/-- What reading the attribute gives. -/
def entry : Attribute → List Char × Option (List Char)
  | flag name => (name.chars, none)
  | setting name value => (name.chars, some value.chars)

/-- Attributes in brackets and a blank behind them. No attributes have no brackets. -/
def listText : List Attribute → List Char
  | [] => []
  | attributes => '[' :: (joined (attributes.map text) ++ [']', ' '])

end Attribute

/-- Arguments in parentheses. -/
def argumentsText (inputs : List Field) : List Char :=
  '(' :: (joined (inputs.map Field.text) ++ [')'])

/-- A function or method. -/
structure Function where
  throws : Option Word
  isAsync : Bool
  result : Option ResultType
  name : Word
  inputs : List Field

namespace Function

/-- The attributes of a function. -/
def attributes (f : Function) : List Attribute :=
  (f.throws.map (Attribute.setting .throws)).toList ++ if f.isAsync then [.flag .async] else []

/-- The type in front of the name. -/
def resultTree (f : Function) : TypeTree :=
  match f.result with
  | some t => t.1
  | none => .word .void

/-- The function as it is written. -/
def text (f : Function) : List Char :=
  Attribute.listText f.attributes
    ++ (f.resultTree.text ++ ' ' :: (f.name.chars ++ argumentsText f.inputs))

/-- The function as it is declared. -/
def declared (crate : Value) (f : Function) : FunctionDecl where
  modulePath := crate
  name := .text f.name.string
  inputs := f.inputs.map Field.declared
  returnType := Value.ofText? (f.result.map fun t => String.ofList t.1.text)
  throws := Value.ofText? (f.throws.map Word.string)
  isAsync := .bool f.isAsync
  docstring := .null

/-- The function as a method of an object. -/
def declaredMethod (crate : Value) (object : Word) (f : Function) : MethodDecl where
  modulePath := crate
  selfName := object.string
  name := .text f.name.string
  inputs := f.inputs.map Field.declared
  returnType := Value.ofText? (f.result.map fun t => String.ofList t.1.text)
  throws := Value.ofText? (f.throws.map Word.string)
  isAsync := .bool f.isAsync
  docstring := .null

end Function

/-- A constructor, whose name is an attribute. -/
structure Constructor where
  name? : Option Word
  throws : Option Word
  inputs : List Field

namespace Constructor

/-- The attributes of a constructor. -/
def attributes (c : Constructor) : List Attribute :=
  (c.name?.map (Attribute.setting .name)).toList
    ++ (c.throws.map (Attribute.setting .throws)).toList

/-- The constructor as it is written. -/
def text (c : Constructor) : List Char :=
  Attribute.listText c.attributes ++ ("constructor".toList ++ argumentsText c.inputs)

/-- The constructor of an object; without a name it is the new one. -/
def declared (crate : Value) (object : Word) (c : Constructor) : ConstructorDecl where
  modulePath := crate
  selfName := object.string
  name := .text ((c.name?.map Word.string).getD "new")
  inputs := c.inputs.map Field.declared
  throws := Value.ofText? (c.throws.map Word.string)
  docstring := .null

end Constructor

/-- A member of an interface. -/
inductive Member where
  | constructor (c : Constructor)
  | method (f : Function)

namespace Member

/-- The member as it is written. -/
def text : Member → List Char
  | constructor c => c.text
  | method f => f.text

/-- The item that a member of an object declares. -/
def item (crate : Value) (object : Word) : Member → Item
  | constructor c => .constructor (c.declared crate object)
  | method f => .method (f.declaredMethod crate object)

end Member

/-- The members of a body, each behind a blank and with a semicolon. -/
def membersText (members : List (List Char)) : List Char :=
  ' ' :: members.flatMap (· ++ [';', ' '])

/-- The variants of an enum in quotes, with blanks around them. -/
def variantsText (variants : List Word) : List Char :=
  ' ' :: (joined (variants.map fun v => '"' :: (v.chars ++ ['"']))
    ++ if variants.isEmpty then [] else [' '])

/-- A keyword, a name and a body in braces. -/
def blockText (attributes : List Attribute) (keyword : String) (name : Word) (body : List Char) :
    List Char :=
  Attribute.listText attributes
    ++ (keyword.toList ++ ' ' :: (name.chars ++ ' ' :: '\x7b' :: (body ++ ['\x7d', ';'])))

/-- Another name for a type. -/
def typedefText (type : TypeTree) (name : Word) : List Char :=
  Word.typedef.chars ++ ' ' :: (type.text ++ ' ' :: (name.chars ++ [';']))

/-- A definition other than the namespace. -/
inductive Definition where
  | dictionary (name : Word) (fields : List Field)
  | enum (isError : Bool) (name : Word) (variants : List Word)
  | interface (name : Word) (members : List Member)
  | callbackInterface (name : Word) (methods : List Function)
  | typedef (type : TypeTree) (name : Word)

namespace Definition

/-- The definition as it is written. -/
def text : Definition → List Char
  | dictionary name fields => blockText [] "dictionary" name (membersText (fields.map Field.text))
  | enum isError name variants =>
    blockText (if isError then [.flag .error] else []) "enum" name (variantsText variants)
  | interface name members => blockText [] "interface" name (membersText (members.map Member.text))
  | callbackInterface name methods =>
    blockText [] "callback interface" name (membersText (methods.map Function.text))
  | typedef type name => typedefText type name

/-- The items that the definition declares; the members of an interface follow their object. -/
def items (crate : Value) : Definition → List Item
  | dictionary name fields =>
    [.record
      { modulePath := crate, name := name.string, fields := fields.map Field.declared,
        docstring := .null }]
  | enum isError name variants =>
    [.enum
      { modulePath := crate, name := name.string,
        variants := variants.map fun v => ⟨v.string, []⟩, isError := .bool isError,
        docstring := .null }]
  | interface name members =>
    .object { modulePath := crate, name := name.string, docstring := .null }
      :: members.map (Member.item crate name)
  | callbackInterface name methods =>
    [.callbackInterface
      { modulePath := crate, name := name.string, methods := methods.map (Function.declared crate),
        docstring := .null }]
  | typedef type name =>
    [.customType
      { modulePath := crate, name := .text name.string,
        builtin := .text (String.ofList type.text) }]

end Definition

/-- White space. -/
def Blanks := { s : List Char // allBlank s = true }

/-- A document: the namespace with its functions, and the definitions around it. -/
structure Document where
  before : List Definition
  name : Word
  functions : List Function
  after : List Definition

namespace Document

/-- The namespace as it is written. -/
def namespaceText (d : Document) : List Char :=
  blockText [] "namespace" d.name (membersText (d.functions.map Function.text))

/-- The texts of the definitions, the namespace among them. -/
def texts (d : Document) : List (List Char) :=
  d.before.map Definition.text ++ d.namespaceText :: d.after.map Definition.text

/-- The text of a document, for the blanks between two definitions and those at the end. -/
def text (d : Document) (between atEnd : Blanks) : String :=
  String.ofList (between.1.intercalate d.texts ++ atEnd.1)

/-- The items that a document declares, in the order of the document. -/
def items (crate : Value) (d : Document) : List Item :=
  d.before.flatMap (Definition.items crate)
    ++ (d.functions.map fun f => .function (f.declared crate))
    ++ d.after.flatMap (Definition.items crate)

/-- The group that a document declares for a crate. -/
def group (crate : Value) (d : Document) : Group := ⟨⟨crate, d.name.string⟩, d.items crate⟩

end Document

end BindGen.Udl.Grammar

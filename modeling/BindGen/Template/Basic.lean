import BindGen.Document.Basic
import BindGen.Emitter.Outline
import BindGen.Foreign.Symbol
import BindGen.Language.Spelling
import BindGen.Product

/-!
# What templates share

The parts that the templates of several languages are put together from: argument lists, docstring
lines, and the heading that names the crate and the checksum of its interface.
-/

namespace BindGen.Template

/-- The parameters of a callable, each with the spelling of its type. -/
abbrev Parameters := List (String × String)

/-- The spellings of the types of fields, beside their names. -/
def parameters (s : Spelling) (fields : List Field) : Except Fault Parameters :=
  fields.mapM fun f => do return (f.name.display, String.ofList (← s.typeText f.type.display.toList))

/-- Parameters with a colon between name and type. -/
def typed (ps : Parameters) : List String := ps.map fun (name, type) => name ++ ": " ++ type

/-- Texts with commas between them. -/
def commas (ss : List String) : String := ", ".intercalate ss

/-- The names of fields. -/
def namesOf (fields : List Field) : List String := fields.map (·.name.display)

/-- A call of a foreign symbol. -/
def call (symbol : String) (receiver : Option String) (arguments : List Field) : Piece :=
  .foreign ⟨.call, symbol, receiver, arguments.map fun f => (f.name.display, f.name.display), ""⟩

/-- The declaration of a foreign symbol. -/
def declaration (symbol : String) (receiver : Option String) (ps : Parameters)
    (write : String → String → String) (empty : String) : Piece :=
  .foreign ⟨.declaration, symbol, receiver, ps.map fun (n, t) => (n, write n t), empty⟩

/-- The lines for a docstring, unless there is none or the text is compact. -/
def docLines (o : Outline) (docstring : Value) (lines : String → Document) : Document :=
  if docstring.isTruthy && !o.compact then lines docstring.display else []

/-- The two lines that a generated text starts with, after the mark of a comment. -/
def heading (comment : String) (o : Outline) : Document :=
  [plainLine (comment ++ s!" Generated by {productName} {productVersion} for crate "
      ++ s!"`{o.crateName.display}`. Do not edit."),
    plainLine (comment ++ s!" Interface checksum: {o.checksum}")]

/-- The documents of a list's members, one after the other. -/
def forEach {α : Type} (items : List α) (render : α → Except Fault Document) :
    Except Fault Document := do
  return (← items.mapM render).flatten

/-- A text in front, if the value counts as true. -/
def onlyIf (v : Value) (s : String) : String := if v.isTruthy then s else ""

/-- The symbol of a function. -/
def functionSymbol (o : Outline) (f : FunctionDecl) : String :=
  (Callable.function f.name).symbol o.crateName

/-- The symbol of a constructor. -/
def constructorSymbol (o : Outline) (object : ObjectDefinition) (c : ConstructorDecl) : String :=
  (Callable.constructor object.name c.name).symbol o.crateName

/-- The symbol of a method. -/
def methodSymbol (o : Outline) (object : ObjectDefinition) (m : MethodDecl) : String :=
  (Callable.method object.name m.name).symbol o.crateName

end BindGen.Template

import BindGen.Template.Basic

/-!
# Ruby

A module that wraps the foreign functions of the library in functions, structures and classes. Types
appear in comments only.
-/

namespace BindGen.Template.Ruby

private def nameList (fields : List Field) : String := commas (namesOf fields)

/-- A docstring as a comment. -/
def doc (o : Outline) (docstring : Value) : Document :=
  docLines o docstring fun d => [plainLine ("  # " ++ d)]

/-- The struct for a record, its attributes in comments. -/
def record (s : Spelling) (o : Outline) (r : RecordDecl) : Except Fault Document := do
  let attributes ← forEach r.fields fun f => do
    let type := String.ofList (← s.typeText f.type.display.toList)
    return [plainLine s!"  # @!attribute {f.name.display} [{type}]"]
  let name ← Naming.classNameOf r.name
  let members := r.fields.map (":" ++ ·.name.display) ++ ["keyword_init: true"]
  return [[]] ++ doc o r.docstring ++ attributes
    ++ [plainLine s!"  {name} = Struct.new({commas members})"]

/-- The module for an enum with a number for each variant, or for an error a class for each of
them. -/
def enum (o : Outline) (e : EnumDecl) : Except Fault Document := do
  let name ← Naming.classNameOf e.name
  let body ← if e.isError.isTruthy then do
      let variants ← e.variants.mapM fun v => do
        let variant ← Naming.classNameOf v.name.value
        return plainLine s!"    class {variant} < {name}; end"
      pure (plainLine s!"  class {name} < StandardError" :: variants)
    else
      let variants := e.variants.zipIdx.map fun (v, i) =>
        plainLine s!"    {v.name.value.raised} = {i + 1}"
      pure (plainLine s!"  module {name}" :: variants)
  return [[]] ++ doc o e.docstring ++ body ++ [plainLine "  end"]

/-- The class for an object, with its constructors and its methods. -/
def object (s : Spelling) (o : Outline) (object : ObjectDefinition) : Except Fault Document := do
  let name ← Naming.classNameOf object.name
  let constructors := (← Outline.constructorsOf object).flatMap fun c =>
    [[], plainLine s!"    def self.{c.name.display}({nameList c.inputs})",
      ["      new(FfiLib.", call (constructorSymbol o object c) none c.inputs, ")"],
      plainLine "    end"]
  let methods ← forEach (← Outline.methodsOf object) fun m => do
    let type ← s.typeOf m.returnType
    return [[], plainLine s!"    # @return [{type}]",
      plainLine s!"    def {m.name.display}({nameList m.inputs})",
      ["      FfiLib.", call (methodSymbol o object m) (some "@pointer") m.inputs],
      plainLine "    end"]
  return [[]] ++ doc o object.declaration.docstring
    ++ [plainLine s!"  class {name}", plainLine "    def initialize(pointer)",
      plainLine "      @pointer = pointer", plainLine "    end"]
    ++ constructors ++ methods ++ [plainLine "  end"]

/-- A function of the module, its types in comments. -/
def function (s : Spelling) (o : Outline) (f : FunctionDecl) : Except Fault Document := do
  let comments ← forEach f.inputs fun a => do
    let type := String.ofList (← s.typeText a.type.display.toList)
    return [plainLine s!"  # @param {a.name.display} [{type}]"]
  let type ← s.typeOf f.returnType
  return [[]] ++ doc o f.docstring ++ comments
    ++ [plainLine s!"  # @return [{type}]",
      plainLine s!"  def self.{f.name.display}({nameList f.inputs})",
      ["    FfiLib.", call (functionSymbol o f) none f.inputs], plainLine "  end"]

/-- The whole file. -/
def render (s : Spelling) (o : Outline) : Except Fault Document := do
  let externals ← o.externalsInOrder
  let imports ← forEach externals fun (_, module) => do
    let module ← module.shown
    return [plainLine s!"require_relative '{module}'"]
  let cdylib ← o.cdylibName.shown
  let name ← Naming.classNameOf (.text o.moduleName)
  let records ← forEach o.records (record s o)
  let enums ← forEach o.enums (enum o)
  let objects ← forEach o.objects (object s o)
  let functions ← forEach o.functions (function s o)
  return heading "#" o ++ [[], plainLine "require 'ffi'"] ++ imports
    ++ [[], plainLine s!"module {name}", plainLine "  module FfiLib",
      plainLine "    extend FFI::Library", plainLine s!"    ffi_lib '{cdylib}'",
      plainLine "  end"]
    ++ records ++ enums ++ objects ++ functions ++ [plainLine "end"]

end BindGen.Template.Ruby

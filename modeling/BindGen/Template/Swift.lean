import BindGen.Template.Basic

/-!
# Swift

A file that wraps the foreign functions of a statically linked library in functions, structures,
enums and classes. The foreign functions themselves are declared in a C header.
-/

namespace BindGen.Template.Swift

private def parameterList (s : Spelling) (fields : List Field) : Except Fault String := do
  return commas (typed (← parameters s fields))

/-- A docstring as a comment. -/
def doc (o : Outline) (margin : String) (docstring : Value) : Document :=
  docLines o docstring fun d => [plainLine (margin ++ "/// " ++ d)]

/-- The struct for a record, a property for each field. -/
def record (s : Spelling) (o : Outline) (r : RecordDecl) : Except Fault Document := do
  let name ← Naming.classNameOf r.name
  let fields ← forEach r.fields fun f => do
    let name ← s.functionName f.name.value
    let type ← s.typeText f.type.display.toList
    return [plainLine (s!"    public var {name}: " ++ String.ofList type)]
  return [[]] ++ doc o "" r.docstring ++ [plainLine (s!"public struct {name} " ++ "\x7b")] ++ fields
    ++ [plainLine "\x7d"]

/-- A name with its first letter in lower case. -/
def lowerFirst (name : String) : String :=
  match name.toList with
  | [] => ""
  | c :: rest => String.ofList (Text.lower [c] ++ rest)

/-- The enum for an enum, a case for each variant. -/
def enum (s : Spelling) (o : Outline) (e : EnumDecl) : Except Fault Document := do
  let name ← Naming.classNameOf e.name
  let variants ← e.variants.mapM fun v => do
    let variant ← s.functionName (.text (lowerFirst v.name.display))
    return plainLine s!"    case {variant}"
  return [[]] ++ doc o "" e.docstring
    ++ [plainLine (s!"public enum {name}" ++ onlyIf e.isError ": Swift.Error" ++ " \x7b")]
    ++ variants ++ [plainLine "\x7d"]

/-- The class for an object, with its constructors and its methods. -/
def object (s : Spelling) (o : Outline) (object : ObjectDefinition) : Except Fault Document := do
  let name ← Naming.classNameOf object.name
  let constructors ← forEach (← Outline.constructorsOf object) fun c => do
    let function ← s.functionName c.name
    let parameters ← parameterList s c.inputs
    return [[],
      plainLine (s!"    public static func {function}({parameters})" ++ onlyIf c.throws " throws"
        ++ s!" -> {name} " ++ "\x7b"),
      [s!"        return {name}(pointer: ", call (constructorSymbol o object c) none c.inputs, ")"],
      plainLine "    \x7d"]
  let methods ← forEach (← Outline.methodsOf object) fun m => do
    let function ← s.functionName m.name
    let parameters ← parameterList s m.inputs
    let type ← s.typeOf m.returnType
    return [[]] ++ doc o "    " m.docstring
      ++ [plainLine (s!"    public func {function}({parameters})" ++ onlyIf m.isAsync " async"
          ++ onlyIf m.throws " throws" ++ s!" -> {type} " ++ "\x7b"),
        ["        return ", call (methodSymbol o object m) (some "pointer") m.inputs],
        plainLine "    \x7d"]
  return [[]] ++ doc o "" object.declaration.docstring
    ++ [plainLine (s!"public class {name} " ++ "\x7b"),
      plainLine "    fileprivate let pointer: UnsafeMutableRawPointer", [],
      plainLine "    fileprivate init(pointer: UnsafeMutableRawPointer) \x7b",
      plainLine "        self.pointer = pointer", plainLine "    \x7d"]
    ++ constructors ++ methods ++ [plainLine "\x7d"]

/-- The protocol for a callback interface. -/
def callbackInterface (s : Spelling) (c : CallbackInterfaceDecl) : Except Fault Document := do
  let name ← Naming.classNameOf c.name
  let methods ← forEach c.methods fun m => do
    let function ← s.functionName m.name
    let parameters ← parameterList s m.inputs
    let type ← s.typeOf m.returnType
    return [plainLine s!"    func {function}({parameters}) -> {type}"]
  return [[], plainLine (s!"public protocol {name}: AnyObject " ++ "\x7b")] ++ methods
    ++ [plainLine "\x7d"]

/-- A function, which calls the foreign one. -/
def function (s : Spelling) (o : Outline) (f : FunctionDecl) : Except Fault Document := do
  let name ← s.functionName f.name
  let parameters ← parameterList s f.inputs
  let type ← s.typeOf f.returnType
  return [[]] ++ doc o "" f.docstring
    ++ [plainLine (s!"public func {name}({parameters})" ++ onlyIf f.isAsync " async"
        ++ onlyIf f.throws " throws" ++ s!" -> {type} " ++ "\x7b"),
      ["    return ", call (functionSymbol o f) none f.inputs], plainLine "\x7d"]

/-- The whole file. -/
def render (s : Spelling) (o : Outline) : Except Fault Document := do
  let externals ← o.externalsInOrder
  let imports ← forEach externals fun (_, module) => do
    let module ← module.shown
    return [plainLine s!"import {module}"]
  let customTypes ← forEach o.customTypes fun c => do
    let type ← s.typeOf c.builtin
    return [[], plainLine s!"public typealias {c.name.display} = {type}"]
  let records ← forEach o.records (record s o)
  let enums ← forEach o.enums (enum s o)
  let objects ← forEach o.objects (object s o)
  let callbackInterfaces ← forEach o.callbackInterfaces (callbackInterface s)
  let functions ← forEach o.functions (function s o)
  return heading "//" o
    ++ [[], plainLine "import Foundation", plainLine s!"#if canImport({o.moduleName}FFI)",
      plainLine s!"import {o.moduleName}FFI", plainLine "#endif"]
    ++ imports ++ customTypes ++ records ++ enums ++ objects ++ callbackInterfaces ++ functions

end BindGen.Template.Swift

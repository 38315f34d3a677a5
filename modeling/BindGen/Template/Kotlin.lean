import BindGen.Template.Basic

/-!
# Kotlin

A file that declares the foreign functions of the library in one interface and wraps them in
functions, data classes, enums and classes.
-/

namespace BindGen.Template.Kotlin

private def parameterList (s : Spelling) (fields : List Field) : Except Fault String := do
  return commas (typed (← parameters s fields))

/-- A docstring as a comment on one line. -/
def doc (o : Outline) (margin : String) (docstring : Value) : Document :=
  docLines o docstring fun d => [plainLine (margin ++ "/** " ++ d ++ " */")]

/-- The declaration of a foreign function, its parameters with the types of the language. -/
def foreign (s : Spelling) (symbol : String) (receiver : Option String)
    (inputs : List Field) : Except Fault Piece := do
  return declaration symbol receiver (← parameters s inputs) (fun n t => n ++ ": " ++ t) ""

/-- The interface of foreign functions. -/
def library (s : Spelling) (o : Outline) : Except Fault Document := do
  let functions ← forEach o.functions fun f => do
    let used ← foreign s (functionSymbol o f) none f.inputs
    return [["    fun ", used, ": " ++ (← s.typeOf f.returnType)]]
  let members ← forEach o.objects fun object => do
    let constructors ← forEach (← Outline.constructorsOf object) fun c => do
      return [["    fun ", ← foreign s (constructorSymbol o object c) none c.inputs, ": Pointer"]]
    let methods ← forEach (← Outline.methodsOf object) fun m => do
      let used ← foreign s (methodSymbol o object m) (some "ptr: Pointer") m.inputs
      return [["    fun ", used, ": " ++ (← s.typeOf m.returnType)]]
    return constructors ++ methods
  let cdylib ← o.cdylibName.shown
  return [plainLine "internal interface FfiLib : Library \x7b",
      plainLine "    companion object \x7b",
      plainLine ("        val INSTANCE: FfiLib by lazy \x7b Native.load(\""
        ++ cdylib ++ "\", FfiLib::class.java) \x7d"),
      plainLine "    \x7d"]
    ++ functions ++ members ++ [plainLine "\x7d"]

/-- The class for a record, a property for each field. -/
def record (s : Spelling) (o : Outline) (r : RecordDecl) : Except Fault Document := do
  let name ← Naming.classNameOf r.name
  let fields ← forEach r.fields fun f => do
    let name ← s.functionName f.name.value
    let type ← s.typeText f.type.display.toList
    return [plainLine (s!"    var {name}: " ++ String.ofList type ++ ",")]
  return [[]] ++ doc o "" r.docstring ++ [plainLine s!"data class {name}("] ++ fields
    ++ [plainLine ")"]

/-- The class for an enum, or for an error the sealed class with a class for each variant. -/
def enum (o : Outline) (e : EnumDecl) : Except Fault Document := do
  let name ← Naming.classNameOf e.name
  let body ← if e.isError.isTruthy then do
      let variants ← e.variants.mapM fun v => do
        let variant ← Naming.classNameOf v.name.value
        return plainLine s!"    class {variant}(message: String) : {name}(message)"
      pure (plainLine (s!"sealed class {name}(message: String) : Exception(message) " ++ "\x7b")
        :: variants)
    else
      let variants := e.variants.map fun v => plainLine ("    " ++ v.name.value.raised ++ ",")
      pure (plainLine (s!"enum class {name} " ++ "\x7b") :: variants)
  return [[]] ++ doc o "" e.docstring ++ body ++ [plainLine "\x7d"]

/-- The companion of a class, which holds its constructors; without any there is none. -/
def companion (s : Spelling) (o : Outline) (object : ObjectDefinition) (name : String) :
    Except Fault Document := do
  if object.constructors.isEmpty then return []
  let constructors ← forEach (← Outline.constructorsOf object) fun c => do
    let function ← s.functionName c.name
    let parameters ← parameterList s c.inputs
    return [plainLine s!"        fun {function}({parameters}): {name} =",
      [s!"            {name}(FfiLib.INSTANCE.",
        call (constructorSymbol o object c) none c.inputs, ")"]]
  return [plainLine "    companion object \x7b"] ++ constructors ++ [plainLine "    \x7d"]

/-- The class for an object, with its constructors in the companion and its methods. -/
def object (s : Spelling) (o : Outline) (object : ObjectDefinition) : Except Fault Document := do
  let name ← Naming.classNameOf object.name
  let companion ← companion s o object name
  let methods ← forEach (← Outline.methodsOf object) fun m => do
    let function ← s.functionName m.name
    let parameters ← parameterList s m.inputs
    let type ← s.typeOf m.returnType
    return [[]] ++ doc o "    " m.docstring
      ++ [plainLine ("    " ++ onlyIf m.isAsync "suspend "
          ++ s!"fun {function}({parameters}): {type} ="),
        ["        FfiLib.INSTANCE.", call (methodSymbol o object m) (some "pointer") m.inputs]]
  return [[]] ++ doc o "" object.declaration.docstring
    ++ [plainLine (s!"class {name}(internal val pointer: Pointer) " ++ "\x7b")] ++ companion
    ++ methods ++ [plainLine "\x7d"]

/-- The interface for a callback interface. -/
def callbackInterface (s : Spelling) (c : CallbackInterfaceDecl) : Except Fault Document := do
  let name ← Naming.classNameOf c.name
  let methods ← forEach c.methods fun m => do
    let function ← s.functionName m.name
    let parameters ← parameterList s m.inputs
    let type ← s.typeOf m.returnType
    return [plainLine s!"    fun {function}({parameters}): {type}"]
  return [[], plainLine (s!"interface {name} " ++ "\x7b")] ++ methods ++ [plainLine "\x7d"]

/-- A function, with its error in front of it. -/
def function (s : Spelling) (o : Outline) (f : FunctionDecl) : Except Fault Document := do
  let throws ← if f.throws.isTruthy then do
      let error ← Naming.classNameOf f.throws
      pure [plainLine s!"@Throws({error}::class)"]
    else pure []
  let name ← s.functionName f.name
  let parameters ← parameterList s f.inputs
  let type ← s.typeOf f.returnType
  return [[]] ++ doc o "" f.docstring ++ throws
    ++ [plainLine (onlyIf f.isAsync "suspend " ++ s!"fun {name}({parameters}): {type} ="),
      ["    FfiLib.INSTANCE.", call (functionSymbol o f) none f.inputs]]

/-- The whole file. -/
def render (s : Spelling) (o : Outline) : Except Fault Document := do
  let externals ← o.externalsInOrder
  let imports ← forEach externals fun (_, module) => do
    let module ← module.shown
    return [plainLine s!"import ffigen.{module}.*"]
  let library ← library s o
  let customTypes ← forEach o.customTypes fun c => do
    let type ← s.typeOf c.builtin
    return [[], plainLine s!"typealias {c.name.display} = {type}"]
  let records ← forEach o.records (record s o)
  let enums ← forEach o.enums (enum o)
  let objects ← forEach o.objects (object s o)
  let callbackInterfaces ← forEach o.callbackInterfaces (callbackInterface s)
  let functions ← forEach o.functions (function s o)
  return heading "//" o
    ++ [[], plainLine s!"package {o.packageName}", [], plainLine "import com.sun.jna.Library",
      plainLine "import com.sun.jna.Native", plainLine "import com.sun.jna.Pointer"]
    ++ imports ++ [[]] ++ library ++ customTypes ++ records ++ enums ++ objects
    ++ callbackInterfaces ++ functions

end BindGen.Template.Kotlin

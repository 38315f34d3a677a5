import BindGen.Template.Basic

/-!
# Python

A module that loads the library and wraps its foreign functions in functions, data classes, enums
and classes.
-/

namespace BindGen.Template.Python

/-- Parameters with commas between them. -/
def parameterList (s : Spelling) (fields : List Field) : Except Fault String := do
  return commas (typed (← parameters s fields))

/-- Parameters that follow another one. -/
def furtherParameters (s : Spelling) (fields : List Field) : Except Fault String := do
  return String.join ((typed (← parameters s fields)).map (", " ++ ·))

/-- A docstring between its quotes. -/
def quotedDoc (margin d : String) : Line := plainLine (margin ++ "\"\"\"" ++ d ++ "\"\"\"")

/-- The docstring of a class, with a blank line below it. -/
def classDoc (o : Outline) (docstring : Value) : Document :=
  docLines o docstring fun d => [quotedDoc "    " d, []]

/-- A docstring below the line of a function. -/
def functionDoc (o : Outline) (margin : String) (docstring : Value) : Document :=
  docLines o docstring fun d => [quotedDoc margin d]

/-- The part of the module that loads the library. -/
def loader (o : Outline) : Except Fault Document := do
  let cdylib ← o.cdylibName.shown
  return [plainLine s!"_LIBRARY_NAME = \"{cdylib}\"", [], [],
    plainLine "def _load_library() -> ctypes.CDLL:",
    plainLine "    import ctypes.util",
    plainLine "    import sys",
    [],
    plainLine "    if sys.platform == \"darwin\":",
    plainLine "        filename = f\"lib\x7b_LIBRARY_NAME\x7d.dylib\"",
    plainLine "    elif sys.platform.startswith(\"win\"):",
    plainLine "        filename = f\"\x7b_LIBRARY_NAME\x7d.dll\"",
    plainLine "    else:",
    plainLine "        filename = f\"lib\x7b_LIBRARY_NAME\x7d.so\"",
    plainLine ("    return ctypes.cdll.LoadLibrary"
      ++ "(ctypes.util.find_library(_LIBRARY_NAME) or filename)"),
    [], [], plainLine "_lib = _load_library()"]

/-- The class for a record, an annotation for each field. -/
def record (s : Spelling) (o : Outline) (r : RecordDecl) : Except Fault Document := do
  let name ← Naming.classNameOf r.name
  let fields ← forEach r.fields fun f => do
    return [plainLine (s!"    {f.name.display}: "
      ++ String.ofList (← s.typeText f.type.display.toList))]
  return [[], [], plainLine "@dataclasses.dataclass", plainLine s!"class {name}:"]
    ++ classDoc o r.docstring
    ++ (if r.fields.isEmpty then [plainLine "    pass"] else fields)

/-- The class for an enum with a number for each variant, or for an error a class for each of
them. -/
def enum (o : Outline) (e : EnumDecl) : Except Fault Document := do
  let name ← Naming.classNameOf e.name
  if e.isError.isTruthy then
    let variants ← forEach e.variants fun v => do
      let variant ← Naming.classNameOf v.name.value
      return [plainLine s!"    class {variant}(Exception):", plainLine "        pass", []]
    return [[], [], plainLine s!"class {name}(Exception):"] ++ classDoc o e.docstring ++ variants
  else
    let variants := e.variants.zipIdx.map fun (v, i) =>
      plainLine s!"    {v.name.value.raised} = {i + 1}"
    return [[], [], plainLine s!"class {name}(enum.Enum):"] ++ classDoc o e.docstring ++ variants

/-- A constructor of the class of an object. -/
def constructor (s : Spelling) (o : Outline) (object : ObjectDefinition) (type : String)
    (c : ConstructorDecl) : Except Fault Document := do
  let parameters ← furtherParameters s c.inputs
  return [[], plainLine "    @classmethod",
    plainLine s!"    def {c.name.display}(cls{parameters}) -> \"{type}\":",
    ["        return cls(_lib.", call (constructorSymbol o object c) none c.inputs, ")"]]

/-- A method of the class of an object. -/
def method (s : Spelling) (o : Outline) (object : ObjectDefinition) (m : MethodDecl) :
    Except Fault Document := do
  let parameters ← furtherParameters s m.inputs
  let type ← s.typeOf m.returnType
  return [[], plainLine ("    " ++ onlyIf m.isAsync "async "
      ++ s!"def {m.name.display}(self{parameters}) -> {type}:")]
    ++ functionDoc o "        " m.docstring
    ++ [[.text "        return _lib.",
      call (methodSymbol o object m) (some "self._pointer") m.inputs]]

/-- The class for an object, with its constructors and its methods. -/
def object (s : Spelling) (o : Outline) (object : ObjectDefinition) : Except Fault Document := do
  let name ← Naming.classNameOf object.name
  let constructors ← forEach (← Outline.constructorsOf object) (constructor s o object name)
  let methods ← forEach (← Outline.methodsOf object) (method s o object)
  return [[], [], plainLine s!"class {name}:"] ++ classDoc o object.declaration.docstring
    ++ [plainLine "    def __init__(self, pointer: ctypes.c_void_p) -> None:",
      plainLine "        self._pointer = pointer"]
    ++ constructors ++ methods

/-- The protocol for a callback interface. -/
def callbackInterface (s : Spelling) (c : CallbackInterfaceDecl) : Except Fault Document := do
  let name ← Naming.classNameOf c.name
  let methods ← forEach c.methods fun m => do
    let parameters ← furtherParameters s m.inputs
    let type ← s.typeOf m.returnType
    return [plainLine s!"    def {m.name.display}(self{parameters}) -> {type}: ..."]
  return [[], [], plainLine s!"class {name}(typing.Protocol):"]
    ++ (if c.methods.isEmpty then [plainLine "    pass"] else methods)

/-- A function, which calls the foreign one. -/
def function (s : Spelling) (o : Outline) (f : FunctionDecl) : Except Fault Document := do
  let parameters ← parameterList s f.inputs
  let type ← s.typeOf f.returnType
  return [[], [], plainLine (onlyIf f.isAsync "async "
      ++ s!"def {f.name.display}({parameters}) -> {type}:")]
    ++ functionDoc o "    " f.docstring
    ++ [[.text "    return _lib.", call (functionSymbol o f) none f.inputs]]

/-- The whole file. -/
def render (s : Spelling) (o : Outline) : Except Fault Document := do
  let externals ← o.externalsInOrder
  let imports ← forEach externals fun (crate, module) => do
    let module ← module.shown
    let crate ← (Value.scalar crate).shown
    return [plainLine s!"from . import {module}  # noqa: F401  (crate `{crate}`)"]
  let loader ← loader o
  let customTypes ← forEach o.customTypes fun c => do
    let type ← s.typeOf c.builtin
    return [[], plainLine s!"{c.name.display} = {type}"]
  let records ← forEach o.records (record s o)
  let enums ← forEach o.enums (enum o)
  let objects ← forEach o.objects (object s o)
  let callbackInterfaces ← forEach o.callbackInterfaces (callbackInterface s)
  let functions ← forEach o.functions (function s o)
  return heading "#" o
    ++ [[], plainLine "from __future__ import annotations", [], plainLine "import ctypes",
      plainLine "import dataclasses", plainLine "import enum", plainLine "import typing"]
    ++ imports ++ [[]] ++ loader ++ customTypes ++ records ++ enums ++ objects
    ++ callbackInterfaces ++ functions

end BindGen.Template.Python

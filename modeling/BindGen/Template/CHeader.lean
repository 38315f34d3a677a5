import BindGen.Template.Basic

/-!
# C headers

The prototypes of the foreign functions, for languages that take them from a C header. The spelling
of C types comes with the language; a language without one cannot declare anything that needs a
type.
-/

namespace BindGen.Template.CHeader

/-- Why a header cannot be written. -/
inductive Gap where
  | fault (f : Fault)
  | noCTypes

/-- The spelling of C types. -/
abbrev CTypes := Value → Except Gap String

/-- C types as they cross into a library. -/
def known : CTypes := fun type => (CType.ofType type).mapError .fault

/-- No spelling at all. -/
def unknown : CTypes := fun _ => .error .noCTypes

/-- The declaration of a foreign function, its parameters with the types of C. -/
def prototype (c : CTypes) (symbol : String) (receiver : Option String)
    (inputs : List Field) : Except Gap Piece := do
  let parameters ← inputs.mapM fun f => do return (f.name.display, ← c f.type.value)
  return declaration symbol receiver parameters (fun n t => t ++ " " ++ n) "void"

/-- The whole file. -/
def render (c : CTypes) (o : Outline) : Except Gap Document := do
  let functions ← o.functions.mapM fun f => do
    let type ← c f.returnType
    return ([type ++ " ", ← prototype c (functionSymbol o f) none f.inputs, ";"] : Line)
  let members ← o.objects.mapM fun object => do
    let constructors ← (← (Outline.constructorsOf object).mapError .fault).mapM fun d => do
      let used ← prototype c (constructorSymbol o object d) none d.inputs
      return (["void *", used, ";"] : Line)
    let methods ← (← (Outline.methodsOf object).mapError .fault).mapM fun m => do
      let type ← c m.returnType
      let used ← prototype c (methodSymbol o object m) (some "void *ptr") m.inputs
      return ([type ++ " ", used, ";"] : Line)
    return constructors ++ methods
  return heading "//" o
    ++ [[], plainLine "#pragma once", [], plainLine "#include <stdbool.h>",
      plainLine "#include <stdint.h>", []]
    ++ functions ++ members.flatten

end BindGen.Template.CHeader

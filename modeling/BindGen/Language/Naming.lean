import BindGen.Text.Blank
import BindGen.Text.Case
import BindGen.Value.Fault

/-!
# Names in generated code

A class name joins the parts of a name between its underscores, each with a capital first letter. A
camel-case name drops the underscores in front of a letter or digit and capitalises what follows.
-/

namespace BindGen.Naming

/-- A part of a name with a capital first letter. -/
def capitalized : List Char → List Char
  | [] => []
  | c :: rest => Text.upperChar c ++ rest

/-- The class name of a name. Models `class_name`. -/
def className (s : List Char) : List Char := (Text.cut (· == '_') s).flatMap capitalized

/-- Whether a character can follow the underscores that camel case drops. -/
def isCamelStart (c : Char) : Bool := c.isAlpha || c.isDigit

/-- The camel-case form of a text that follows a run of underscores. -/
def camelAfter (underscores : Nat) : List Char → List Char
  | [] => List.replicate underscores '_'
  | c :: rest =>
    if c = '_' then camelAfter (underscores + 1) rest
    else if 0 < underscores ∧ isCamelStart c then c.toUpper :: camelAfter 0 rest
    else List.replicate underscores '_' ++ c :: camelAfter 0 rest

/-- The camel-case form of a name. -/
def camelCase (s : List Char) : List Char := camelAfter 0 s

/-- The class name of a value, which has to be a text. -/
def classNameOf (v : Value) : Except Fault String :=
  match v with
  | .text s => .ok (String.ofList (className s.toList))
  | .scalar (.broken _) => .ok (String.ofList (className v.display.toList))
  | .list _ => .error (.noOperation v.typeName "isupper")
  | .pair .. => .error (.noOperation v.typeName "isupper")
  | .table entries =>
    if Table.has entries "_" then .error (.noOperation v.typeName "split")
    else .error (.notHashable "slice")
  | .set _ | .link .. => .error (.notIndexable v.typeName)
  | .scalar _ => .error (.notText v.typeName)

/-- The camel-case form of a value, which has to be a text. -/
def camelCaseOf (v : Value) : Except Fault String :=
  match v with
  | .text s => .ok (String.ofList (camelCase s.toList))
  | .scalar (.broken _) => .ok (String.ofList (camelCase v.display.toList))
  | v => .error (.notText v.typeName)

end BindGen.Naming

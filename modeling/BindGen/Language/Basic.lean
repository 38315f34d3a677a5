import BindGen.Text.Blank
import BindGen.Text.Case
import BindGen.Value.Display

/-!
# Target languages

The languages that the generator has templates of its own for.
-/

namespace BindGen

/-- A language to generate bindings in. Models `TargetLanguage`. -/
inductive Language where
  | kotlin
  | swift
  | python
  | ruby
deriving DecidableEq

namespace Language

/-- All languages, in the order in which they are listed. -/
def all : List Language := [kotlin, swift, python, ruby]

/-- The name of a language. -/
def name : Language → String
  | kotlin => "kotlin"
  | swift => "swift"
  | python => "python"
  | ruby => "ruby"

/-- Whether bindings in the language load the library at run time, and so need a dynamic one. Models
`TargetLanguage.requires_cdylib`. -/
def requiresCdylib (l : Language) : Bool := l != swift

/-- The names of all languages. -/
def names : String := ", ".intercalate (all.map name)

/-- A text that names no language. -/
structure UnknownLanguage where
  text : String

/-- The wording of the error. -/
def UnknownLanguage.message (e : UnknownLanguage) : String :=
  s!"Unknown target language {(Value.text e.text).quoted} (expected one of: {names})"

/-- The language that a text names, in any case and with blanks around it. Models
`TargetLanguage.parse`. -/
def ofText (s : String) : Except UnknownLanguage Language :=
  let wanted := String.ofList (Text.lower (Text.trim s.toList))
  match all.find? (·.name == wanted) with
  | some l => .ok l
  | none => .error ⟨s⟩

/-- Two languages differ in their names. -/
theorem name_injective {a b : Language} (h : a.name = b.name) : a = b := by
  cases a <;> cases b <;> simp_all [name]

end Language
end BindGen

import BindGen.Template.CHeader
import BindGen.Template.Kotlin
import BindGen.Template.Python
import BindGen.Template.Ruby
import BindGen.Template.Swift

/-!
# Templates

The templates by name, and what each of them makes of an outline.
-/

namespace BindGen

/-- A template. -/
inductive Template where
  | kotlin
  | swift
  | cHeader
  | python
  | ruby
deriving DecidableEq

namespace Template

/-- All templates. -/
def all : List Template := [kotlin, swift, cHeader, python, ruby]

/-- The name of a template. -/
def name : Template → String
  | kotlin => "kotlin.kt.j2"
  | swift => "swift.swift.j2"
  | cHeader => "swift_header.h.j2"
  | python => "python.py.j2"
  | ruby => "ruby.rb.j2"

/-- The parts of a path to a template, without those that stay in a directory. -/
def pathParts (s : String) : List (List Char) :=
  (Text.cut (· == '/') s.toList).filter fun part => !part.isEmpty && part != ['.']

/-- The template that a path leads to: its name, however the path gets there. No path leads
upwards. -/
def ofName? (s : String) : Option Template :=
  match pathParts s with
  | [part] => all.find? (·.name == String.ofList part)
  | _ => none

/-- What a template makes of an outline. -/
def render (t : Template) (s : Spelling) (c : CHeader.CTypes) (o : Outline) :
    Except CHeader.Gap Document :=
  match t with
  | kotlin => (Kotlin.render s o).mapError .fault
  | swift => (Swift.render s o).mapError .fault
  | cHeader => CHeader.render c o
  | python => (Python.render s o).mapError .fault
  | ruby => (Ruby.render s o).mapError .fault

/-- Reading a template's name gives the template. -/
theorem ofName?_name (t : Template) : ofName? t.name = some t := by cases t <;> decide

end Template
end BindGen

import BindGen.CommandLine.Grammar
import BindGen.Text.Blank
import BindGen.Text.Lines

/-!
# Help texts

The usage of a program and its help, in lines of at most seventy-eight characters. The usage puts
the switches and the operands behind the name of the program; the help lists them in two columns.
-/

namespace BindGen.CommandLine

/-- The greatest width of a line. -/
def lineWidth : Nat := 78

/-- The greatest width of the first column of a list. -/
def columnLimit : Nat := 24

/-- Blanks. -/
def spaces (n : Nat) : String := String.ofList (List.replicate n ' ')

/-- A text at the start of a column of a given width. -/
def padded (width : Nat) (s : String) : String := s ++ spaces (width - s.length)

/-- The commands to choose from. -/
def choiceText (choices : List (String × String)) : String :=
  "\x7b" ++ ",".intercalate (choices.map (·.1)) ++ "\x7d"

namespace Switch

/-- A name of a switch with its argument. -/
def call (s : Switch) (name : String) : String :=
  match s.argument with
  | some a => name ++ " " ++ a.name
  | none => name

/-- The parts of a usage that a switch gives. An optional switch is a single part in brackets. -/
def usage (s : Switch) : List String :=
  let name := s.names.headD ""
  if s.required then name :: (s.argument.map (·.name)).toList else ["[" ++ s.call name ++ "]"]

/-- A switch in the first column of a list. -/
def heading (s : Switch) : String := ", ".intercalate (s.names.map s.call)

end Switch

/-- The parts of a usage that operands give. -/
def Operands.usage : Operands → List String
  | none => []
  | one name _ => [name]
  | command _ choices => [choiceText choices, "..."]

/-- An entry of a list: how far its heading is indented, the heading, and the help. -/
structure Entry where
  indentation : Nat
  heading : String
  help : String

namespace Entry

/-- The lines of an entry, with the help from a column on. -/
def lines (column : Nat) (e : Entry) : List String :=
  let first := spaces e.indentation ++ e.heading
  let help := Text.fill (lineWidth - column) ((Text.words e.help.toList).map String.ofList)
  match help with
  | [] => [first]
  | h :: rest =>
    let others := rest.map fun line => spaces column ++ line
    if first.length + 2 ≤ column then (padded column first ++ h) :: others
    else first :: (spaces column ++ h) :: others

end Entry

/-- The entries of the list of operands. -/
def Operands.entries : Operands → List Entry
  | none => []
  | one name help => [⟨2, name, help⟩]
  | command _ choices =>
    ⟨2, choiceText choices, ""⟩ :: choices.map fun (name, help) => ⟨4, name, help⟩

namespace Grammar

/-- The entries of the list of switches. -/
def entries (g : Grammar) : List Entry := g.switches.map fun s => ⟨2, s.heading, s.help⟩

/-- The usage of a program, line by line. -/
def usageLines (g : Grammar) : List String :=
  let start := "usage: " ++ g.program
  let switches := g.switches.flatMap Switch.usage
  let operands := g.operands.usage
  let line := " ".intercalate (start :: switches ++ operands)
  if line.length ≤ lineWidth then [line]
  else
    let column := start.length + 1
    let lines := Text.fill (lineWidth - column) switches ++ Text.fill (lineWidth - column) operands
    match lines with
    | [] => [start]
    | first :: rest => (start ++ " " ++ first) :: rest.map fun l => spaces column ++ l

/-- The usage of a program. -/
def usage (g : Grammar) : String := "\n".intercalate g.usageLines ++ "\n"

/-- The column at which helps start. -/
def helpColumn (g : Grammar) : Nat :=
  let widths := (g.operands.entries ++ g.entries).map fun e => e.indentation + e.heading.length
  min (widths.foldl max 0 + 2) columnLimit

/-- A list under a title, or nothing if there are no entries. -/
def section? (g : Grammar) (title : String) (entries : List Entry) : List (List String) :=
  if entries.isEmpty then [] else [(title ++ ":") :: entries.flatMap (Entry.lines g.helpColumn)]

/-- The help of a program. -/
def help (g : Grammar) : String :=
  let parts := [g.usageLines] ++ (g.description.map fun d => [d]).toList
    ++ g.section? "positional arguments" g.operands.entries ++ g.section? "options" g.entries
  "\n\n".intercalate (parts.map "\n".intercalate) ++ "\n"

end Grammar
end BindGen.CommandLine

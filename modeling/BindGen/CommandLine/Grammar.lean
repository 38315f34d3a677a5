import BindGen.Value.Display

/-!
# Grammars of command lines

What a program can be asked for on its command line: the switches that it knows, with or without an
argument, and what else it takes. A switch has short names of one letter and long names; a command
may choose among commands of its own, each with a grammar.
-/

namespace BindGen.CommandLine

/-- What the argument of a switch has to be. -/
inductive ArgumentKind where
  | text
  | integer
deriving DecidableEq

/-- The argument of a switch, with its name in the help. -/
structure Argument where
  name : String
  kind : ArgumentKind
deriving DecidableEq

/-- A switch. -/
structure Switch where
  /-- its names with their hyphens -/
  names : List String
  argument : Option Argument
  required : Bool
  help : String
deriving DecidableEq

namespace Switch

/-- How messages call a switch. -/
def label (s : Switch) : String := "/".intercalate s.names

/-- Whether a switch asks for help. -/
def isHelp (s : Switch) : Bool := s.names.contains "--help"

end Switch

/-- What a program takes besides switches. -/
inductive Operands where
  | none
  | one (name help : String)
  /-- a command, given by its name, with all that stands behind it -/
  | command (name : String) (choices : List (String × String))

/-- The name of what has to be there besides switches. -/
def Operands.name? : Operands → Option String
  | none => Option.none
  | one name _ => some name
  | command name _ => some name

/-- What a program can be asked for. -/
structure Grammar where
  program : String
  description : Option String
  switches : List Switch
  operands : Operands

namespace Grammar

/-- The names of all switches, with the switches. -/
def names (g : Grammar) : List (String × Switch) :=
  g.switches.flatMap fun s => s.names.map fun n => (n, s)

/-- The switch with a name. -/
def find? (g : Grammar) (name : String) : Option Switch := g.names.lookup name

/-- The names of what has to be there. -/
def required (g : Grammar) : List Switch := g.switches.filter (·.required)

end Grammar

/-- What is wrong with a command line. -/
inductive Misuse where
  | ambiguous (word : String) (names : List String)
  | needlessArgument (s : Switch) (text : String)
  | noArgument (s : Switch)
  | notInteger (s : Switch) (text : String)
  | unknownCommand (operand given : String) (choices : List String)
  | missing (names : List String)
  | unrecognized (words : List String)

namespace Misuse

-- A text in quotes.
private def quote (s : String) : String := (Value.text s).quoted

/-- The wording of a misuse. -/
def message : Misuse → String
  | ambiguous word names =>
    let names := ", ".intercalate names
    s!"ambiguous option: {word} could match {names}"
  | needlessArgument s text =>
    s!"argument {s.label}: ignored explicit argument {quote text}"
  | noArgument s => s!"argument {s.label}: expected one argument"
  | notInteger s text => s!"argument {s.label}: invalid int value: {quote text}"
  | unknownCommand operand given choices =>
    let choices := ", ".intercalate (choices.map quote)
    s!"argument {operand}: invalid choice: {quote given} (choose from {choices})"
  | missing names =>
    let names := ", ".intercalate names
    s!"the following arguments are required: {names}"
  | unrecognized words =>
    let words := " ".intercalate words
    s!"unrecognized arguments: {words}"

end Misuse
end BindGen.CommandLine

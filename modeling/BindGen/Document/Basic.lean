import BindGen.Text.Blank
import BindGen.Text.Lines

/-!
# Documents

A generated text is a list of lines, and a line is a list of pieces: plain text, or the use of a
foreign symbol with its argument list. `Document.text` is the text itself and `Document.surface` the
view of it that keeps the foreign symbols alone. A compact text has no blank lines.
-/

namespace BindGen

/-- Whether a symbol is declared or called. -/
inductive Site where
  | declaration
  | call
deriving DecidableEq

/-- A foreign symbol with its argument list. -/
structure ForeignUse where
  site : Site
  symbol : String
  /-- what is passed for the object, for a method -/
  receiver : Option String
  /-- the further arguments: their names, and how they are written -/
  arguments : List (String × String)
  /-- what stands in an empty argument list -/
  empty : String

/-- A piece of a line. -/
inductive Piece where
  | text (s : String)
  | foreign (use : ForeignUse)

/-- A line, without its end. -/
abbrev Line := List Piece

/-- A generated text. -/
abbrev Document := List Line

/-- What stands between the brackets of an argument list. -/
def ForeignUse.argumentText (u : ForeignUse) : String :=
  match u.receiver.toList ++ u.arguments.map (·.2) with
  | [] => u.empty
  | written => ", ".intercalate written

/-- The text of a piece. -/
def Piece.render : Piece → String
  | text s => s
  | foreign u => u.symbol ++ "(" ++ u.argumentText ++ ")"

/-- The text of a line. -/
def Line.render (l : Line) : String := String.join (l.map Piece.render)

/-- A text is a piece of itself. -/
instance : Coe String Piece := ⟨.text⟩

/-- A line of plain text. -/
def plainLine (s : String) : Line := [.text s]

namespace Document

/-- The text of a document; every line ends with a line feed. -/
def text (d : Document) : String := String.join (d.map fun l => Line.render l ++ "\n")

/-- The text without its blank lines. -/
def compact (s : String) : String :=
  let kept := (Text.lines s.toList).filter fun l => !Text.allBlank l
  "\n".intercalate (kept.map String.ofList) ++ "\n"

/-- The foreign symbols used at sites of one sort, with the names of their arguments. -/
def surface (site : Site) (d : Document) : List (String × List String) :=
  d.flatMap fun l => l.filterMap fun
    | .foreign u => if u.site = site then some (u.symbol, u.arguments.map (·.1)) else none
    | .text _ => none

end Document
end BindGen

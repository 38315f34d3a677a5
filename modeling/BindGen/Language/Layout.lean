import BindGen.Text.Numeral
import BindGen.Value.Fault

/-!
# Layouts

How a slot lays out the text that fills it: how much of the text is kept, and how it is padded to a
width. Layouts are shared with other kinds of values, so a layout may ask for what a text does not
have.
-/

namespace BindGen

/-- Where padding goes: behind a value, in front of it, around it, or between its sign and its
digits. -/
inductive Alignment where
  | front
  | back
  | middle
  | sign
deriving DecidableEq

/-- The alignment that a character stands for. -/
def Alignment.ofChar? (c : Char) : Option Alignment :=
  match c with
  | '<' => some front
  | '>' => some back
  | '^' => some middle
  | '=' => some sign
  | _ => none

namespace Text

/-- The natural that decimal digits in front of a text write, and what stands behind it. -/
def takePlace (s : List Char) : Except Fault (Option Nat × List Char) :=
  let (front, rest) := s.span isDecimalDigit
  let n := ofDigits 10 (front.filterMap decimalDigit?)
  if greatestPlace < n then .error (.invalid "Too many decimal digits in format string")
  else .ok (if front.isEmpty then none else some n, rest)

/-- A character in front of a text, if it is there. -/
def takeChar (c : Char) : List Char → Bool × List Char
  | d :: rest => if c = d then (true, rest) else (false, d :: rest)
  | [] => (false, [])

/-- A text padded to a width. -/
def pad (filler : Char) (alignment : Alignment) (width : Nat) (s : List Char) : List Char :=
  let missing := width - s.length
  let left := match alignment with
    | .back => missing
    | .middle => missing / 2
    | _ => 0
  List.replicate left filler ++ s ++ List.replicate (missing - left) filler

end Text

/-- How a value is laid out. -/
structure Layout where
  filler : Char
  alignment : Alignment
  /-- how signs of numbers are written -/
  sign : Option Char
  /-- whether a negative zero loses its sign -/
  plainZero : Bool
  alternate : Bool
  width : Option Nat
  precision : Option Nat
  /-- the form in which the value is written -/
  form : Char

namespace Layout

private def invalid {α : Type} (reason : String) : Except Fault α := .error (.invalid reason)

/-- The alignment that a layout starts with, with the character to pad with. -/
def takeAlignment (s : List Char) : Option Char × Option Alignment × List Char :=
  match s with
  | c :: d :: rest =>
    match Alignment.ofChar? d, Alignment.ofChar? c with
    | some a, _ => (some c, some a, rest)
    | none, some a => (none, some a, d :: rest)
    | none, none => (none, none, s)
  | [c] =>
    match Alignment.ofChar? c with
    | some a => (none, some a, [])
    | none => (none, none, s)
  | [] => (none, none, [])

/-- The character that a layout asks to put between groups of digits. -/
def takeGrouping (s : List Char) : Except Fault (Option Char × List Char) :=
  let (comma, s) := Text.takeChar ',' s
  let (underscore, s) := Text.takeChar '_' s
  if underscore && (comma || (Text.takeChar ',' s).1) then invalid "Cannot specify both ',' and '_'."
  else .ok (if comma then some ',' else if underscore then some '_' else none, s)

/-- The precision that a layout asks for behind a point. -/
def takePrecision (s : List Char) : Except Fault (Option Nat × List Char) :=
  match s with
  | '.' :: rest => do
    let (precision, rest) ← Text.takePlace rest
    if precision.isNone then invalid "Format specifier missing precision"
    return (precision, rest)
  | s => .ok (none, s)

/-- The forms of values whose digits can be grouped by a character. -/
def groupedForms (grouping : Char) : List Char :=
  ['d', 'e', 'f', 'g', 'E', 'G', '%', 'F'] ++ (if grouping = '_' then ['b', 'o', 'x', 'X'] else [])

/-- The complaint about a form whose digits cannot be grouped. -/
def ungrouped (grouping form : Char) : String :=
  let shown :=
    if 32 < form.toNat ∧ form.toNat < 128 then [form] else '\\' :: 'x' :: hexDigits 1 form.toNat
  s!"Cannot specify '{grouping}' with '{String.ofList shown}'."

/-- The layout that a text asks for. -/
def ofText (text : List Char) : Except Fault Layout := do
  let (filler, alignment, s) := takeAlignment text
  let (sign, s) := match s with
    | c :: rest => if [' ', '+', '-'].contains c then (some c, rest) else (none, s)
    | [] => (none, s)
  let (plainZero, s) := Text.takeChar 'z' s
  let (alternate, s) := Text.takeChar '#' s
  let (zero, s) := if filler.isNone then Text.takeChar '0' s else (false, s)
  let (width, s) ← Text.takePlace s
  let (grouping, s) ← takeGrouping s
  let (precision, s) ← takePrecision s
  let form ← match s with
    | [] => pure 's'
    | [c] => pure c
    | _ =>
      invalid s!"Invalid format specifier '{String.ofList text}' for object of type 'str'"
  match grouping with
  | some c => if !(groupedForms c).contains form then invalid (ungrouped c form)
  | none => pure ()
  return {
    filler := filler.getD (if zero then '0' else ' ')
    alignment := alignment.getD .front
    sign, plainZero, alternate, width, precision, form }

/-- The complaint about a form that texts do not have. -/
def unknownForm (form : Char) : String :=
  let shown :=
    if 32 < form.toNat ∧ form.toNat < 128 then [form] else '\\' :: 'x' :: hexDigits 1 form.toNat
  s!"Unknown format code '{String.ofList shown}' for object of type 'str'"

/-- What keeps a layout from being one for texts. -/
def complaint? (l : Layout) : Option String :=
  if l.form ≠ 's' then some (unknownForm l.form)
  else if l.sign = some ' ' then some "Space not allowed in string format specifier"
  else if l.sign.isSome then some "Sign not allowed in string format specifier"
  else if l.plainZero then
    some "Negative zero coercion (z) not allowed in string format specifier"
  else if l.alternate then some "Alternate form (#) not allowed in string format specifier"
  else if l.alignment = .sign then some "'=' alignment not allowed in string format specifier"
  else none

/-- A text as a layout asks for it. -/
def apply (l : Layout) (s : List Char) : Except Fault (List Char) :=
  match l.complaint? with
  | some reason => invalid reason
  | none =>
    let kept := match l.precision with
      | some n => s.take n
      | none => s
    let width := l.width.getD 0
    if Text.greatestWidth < width then .error .exhausted
    else .ok (Text.pad l.filler l.alignment width kept)

/-- A text in the layout that another text asks for; an empty one asks for nothing. -/
def laidOut (layout s : List Char) : Except Fault (List Char) :=
  if layout.isEmpty then .ok s else do (← ofText layout).apply s

end Layout
end BindGen

import BindGen.Number.Shortest
import BindGen.Text.Word
import BindGen.Value.Basic

/-!
# Displaying values

The text that stands for a value in generated code and in messages. `Value.display` shows a text as
it is; inside a list, pair, set or table, and in `Value.quoted`, texts stand in quotes with their
control and unprintable characters escaped. A surrogate without its partner is always escaped.
-/

namespace BindGen

/-- The lower-case hexadecimal digits of a natural, with leading zeros up to the width. -/
def hexDigits (width n : Nat) : List Char :=
  let ds := Nat.toDigits 16 n
  List.replicate (width - ds.length) '0' ++ ds

namespace Text

/-- A character inside quotes of the given kind. -/
def quotedChar (quote c : Char) : List Char :=
  let n := c.toNat
  if c = quote ∨ c = '\\' then ['\\', c]
  else if c = '\n' then ['\\', 'n']
  else if c = '\r' then ['\\', 'r']
  else if c = '\t' then ['\\', 't']
  else if isPrintable c then [c]
  else if n < 0x100 then '\\' :: 'x' :: hexDigits 2 n
  else if n < 0x10000 then '\\' :: 'u' :: hexDigits 4 n
  else '\\' :: 'U' :: hexDigits 8 n

/-- The text in single quotes, or in double quotes if it has single ones and no double ones. -/
def quoted (s : List Char) : List Char :=
  let quote := if s.contains '\'' && !s.contains '"' then '"' else '\''
  quote :: s.flatMap (quotedChar quote) ++ [quote]

end Text

namespace BrokenText

/-- The text with its characters written by a function, and its lone surrogates as escapes. -/
def written (t : BrokenText) (write : Char → List Char) : List Char :=
  t.points.flatMap fun n => match n.char? with
    | some c => write c
    | none => '\\' :: 'u' :: hexDigits 4 n.val

/-- The text in quotes, which are those of other texts. -/
def quoted (t : BrokenText) : List Char :=
  let has (c : Char) : Bool := t.points.contains (.ofChar c)
  let quote := if has '\'' && !has '"' then '"' else '\''
  quote :: t.written (Text.quotedChar quote) ++ [quote]

end BrokenText

namespace Text

/-- A character as it is written with the first 128 characters only. -/
def asciiChar (c : Char) : List Char :=
  let n := c.toNat
  if n < 0x80 then [c]
  else if n < 0x100 then '\\' :: 'x' :: hexDigits 2 n
  else if n < 0x10000 then '\\' :: 'u' :: hexDigits 4 n
  else '\\' :: 'U' :: hexDigits 8 n

/-- The text with the first 128 characters only. -/
def inAscii (s : List Char) : List Char := s.flatMap asciiChar

end Text

-- A byte inside quotes of the given kind.
private def quotedByte (quote : Char) (b : UInt8) : List Char :=
  let c := Char.ofNat b.toNat
  if c = quote ∨ c = '\\' then ['\\', c]
  else if c = '\n' then ['\\', 'n']
  else if c = '\r' then ['\\', 'r']
  else if c = '\t' then ['\\', 't']
  else if 32 ≤ b ∧ b ≤ 126 then [c]
  else '\\' :: 'x' :: hexDigits 2 b.toNat

/-- Bytes in quotes. -/
def quotedBytes (b : Bytes) : List Char :=
  let has (c : Char) : Bool := b.any (·.toNat == c.toNat)
  let quote := if has '\'' && !has '"' then '"' else '\''
  'b' :: quote :: b.flatMap (quotedByte quote) ++ [quote]

namespace Moment

private def parts (ns : List Nat) : String := ", ".intercalate (ns.map toString)

-- The parts of a time without trailing zero seconds and microseconds.
private def clockParts (c : Clock) : List Nat :=
  if c.microsecond ≠ 0 then [c.hour, c.minute, c.second, c.microsecond]
  else if c.second ≠ 0 then [c.hour, c.minute, c.second]
  else [c.hour, c.minute]

/-- A span of minutes as it is shown inside a list or table: whole days and further seconds. -/
def quotedDelta (minutes : Int) : String :=
  let seconds := minutes * 60
  let days := Int.fdiv seconds 86400
  let rest := Int.fmod seconds 86400
  let named := (if days = 0 then [] else [s!"days={days}"])
    ++ (if rest = 0 then [] else [s!"seconds={rest}"])
  "datetime.timedelta(" ++ ", ".intercalate named ++ ")"

private def quotedOffset (minutes : Int) : String :=
  if minutes = 0 then "datetime.timezone.utc"
  else "datetime.timezone(" ++ quotedDelta minutes ++ ")"

/-- A moment as it is shown inside a list or table. -/
def quoted : Moment → String
  | date d => s!"datetime.date({parts [d.year, d.month, d.day]})"
  | time c => s!"datetime.time({parts (clockParts c)})"
  | dateTime d c offset =>
    let zone := match offset with
      | some minutes => s!", tzinfo={quotedOffset minutes}"
      | none => ""
    s!"datetime.datetime({parts ([d.year, d.month, d.day] ++ clockParts c)}{zone})"

end Moment

/-- A scalar as it is shown inside a list or table. -/
def Scalar.quoted : Scalar → String
  | null => "None"
  | bool b => if b then "True" else "False"
  | int n => toString n
  | float x => x.text
  | text s => String.ofList (Text.quoted s.toList)
  | broken t => String.ofList t.quoted
  | bytes b => String.ofList (quotedBytes b)
  | moment m => m.quoted

/-- A scalar as it is shown by itself. -/
def Scalar.display : Scalar → String
  | text s => s
  | broken t => String.ofList (t.written fun c => [c])
  | moment m => m.isoWith " "
  | s => s.quoted

namespace Value

mutual

/-- A value as it is shown inside a list or table. A link stands for something around it. -/
def quoted : Value → String
  | scalar s => s.quoted
  | list items => "[" ++ ", ".intercalate (quotedItems items) ++ "]"
  | pair a b => "(" ++ quoted a ++ ", " ++ quoted b ++ ")"
  | set members =>
    if members.isEmpty then "set()"
    else "\x7b" ++ ", ".intercalate (members.map (·.quoted)) ++ "\x7d"
  | table entries => "\x7b" ++ ", ".intercalate (quotedEntries entries) ++ "\x7d"
  | link _ .list => "[...]"
  | link _ .set => "set(...)"
  | link _ .table => "\x7b...\x7d"

/-- The items of a list as they are shown inside it. -/
def quotedItems : List Value → List String
  | [] => []
  | v :: rest => quoted v :: quotedItems rest

/-- The entries of a table as they are shown inside it. -/
def quotedEntries : List (Scalar × Value) → List String
  | [] => []
  | (k, v) :: rest => (k.quoted ++ ": " ++ quoted v) :: quotedEntries rest

end

/-- A value as it is shown by itself: a text without quotes. -/
def display : Value → String
  | scalar s => s.display
  | v => v.quoted

/-- The kind of a value, as it is named in messages. -/
def typeName : Value → String
  | scalar .null => "NoneType"
  | scalar (.bool _) => "bool"
  | scalar (.int _) => "int"
  | scalar (.float _) => "float"
  | scalar (.text _) | scalar (.broken _) => "str"
  | scalar (.bytes _) => "bytes"
  | scalar (.moment (.date _)) => "datetime.date"
  | scalar (.moment (.time _)) => "datetime.time"
  | scalar (.moment (.dateTime ..)) => "datetime.datetime"
  | list _ | link _ .list => "list"
  | pair _ _ => "tuple"
  | set _ | link _ .set => "set"
  | table _ | link _ .table => "dict"

/-- A text is shown as it is. -/
@[simp] theorem display_text (s : String) : (text s).display = s := rfl

/-- The text that a value becomes where a text is needed. It is what is shown of the value, but a
broken text stays as it is. -/
def wording : Value → LooseText
  | scalar (.broken t) => .broken t
  | v => .proper v.display

end Value

namespace LooseText

/-- A text as a value. -/
def value (t : LooseText) : Value := .scalar t.scalar

/-- A text as it is shown by itself. -/
def display (t : LooseText) : String := t.scalar.display

/-- A text as a value becomes that text. -/
@[simp] theorem wording_value (t : LooseText) : t.value.wording = t := by cases t <;> rfl

end LooseText
end BindGen

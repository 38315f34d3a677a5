import BindGen.Json.Token
import BindGen.Value.Fault

/-!
# Canonical JSON

The one text of a value: no blanks, the keys of every table in the order of their code points, every
character outside the printable ASCII range escaped, surrogates without a partner too, and floats
with the fewest digits that read back.
-/

namespace BindGen.Json

/-- A `\u` escape for a 16-bit unit. -/
def unitEscape (n : Nat) : List Char := '\\' :: 'u' :: hexDigits 4 n

/-- A character as it stands in quotes. -/
def escapeChar (c : Char) : List Char :=
  let n := c.toNat
  if c = '"' then ['\\', '"']
  else if c = '\\' then ['\\', '\\']
  else if c = '\n' then ['\\', 'n']
  else if c = '\r' then ['\\', 'r']
  else if c = '\t' then ['\\', 't']
  else if c = '\x08' then ['\\', 'b']
  else if c = '\x0c' then ['\\', 'f']
  else if 0x20 ≤ n ∧ n ≤ 0x7E then [c]
  else if n < 0x10000 then unitEscape n
  else
    let m := n - 0x10000
    unitEscape (0xD800 + m / 0x400) ++ unitEscape (0xDC00 + m % 0x400)

mutual

/-- Whether standard JSON has a form for a value: all of its floats are finite, and none of its
texts is broken. -/
def isStandard : Value → Bool
  | .scalar s => isStandardScalar s
  | .list items => areStandard items
  | .pair a b => isStandard a && isStandard b
  | .set members => members.all isStandardScalar
  | .table entries => areEntriesStandard entries
  | .link .. => true

/-- Whether every item of a list is a standard value. -/
def areStandard : List Value → Bool
  | [] => true
  | v :: rest => isStandard v && areStandard rest

/-- Whether every value of a table is standard. Its keys become texts in any case. -/
def areEntriesStandard : List (Scalar × Value) → Bool
  | [] => true
  | (_, v) :: rest => isStandard v && areEntriesStandard rest

/-- Whether a scalar has a form in standard JSON. Infinite numbers and those that are none have not,
and a text with a lone surrogate has none in UTF-8. -/
def isStandardScalar : Scalar → Bool
  | .float .nan | .float (.infinite _) | .broken _ => false
  | _ => true

end

/-- A code point as it stands in quotes. -/
def escapePoint (n : CodePoint) : List Char :=
  match n.char? with
  | some c => escapeChar c
  | none => unitEscape n.val

/-- A text in quotes. -/
def writeText (t : LooseText) : List Char := '"' :: t.points.flatMap escapePoint ++ ['"']

/-- A scalar. Bytes and moments, which JSON has no form for, are written as texts. -/
def writeScalar : Scalar → List Char
  | .null => "null".toList
  | .bool b => (if b then "true" else "false").toList
  | .int n => (toString n).toList
  | .float .nan => "NaN".toList
  | .float (.infinite s) => (if s then "-Infinity" else "Infinity").toList
  | .float x => x.text.toList
  | .text s => writeText s
  | .broken t => writeText (.broken t)
  | .bytes b => writeText (String.ofList (b.flatMap fun x => hexDigits 2 x.toNat))
  | .moment m => writeText m.iso

/-- A key: a text, or the text of another scalar in quotes. -/
def writeKey : Scalar → List Char
  | .text s => writeText s
  | .broken t => writeText (.broken t)
  | .bytes b => writeScalar (.bytes b)
  | .moment m => writeScalar (.moment m)
  | s => '"' :: writeScalar s ++ ['"']

/-- Pieces with commas between them. -/
def commaSeparated : List (List Char) → List Char
  | [] => []
  | [piece] => piece
  | piece :: rest => piece ++ ',' :: commaSeparated rest

/-- Pieces in the order of their keys. -/
def inKeyOrder (pieces : List (Scalar × List Char)) : List (List Char) :=
  (sortOn Prod.fst pieces).map (·.2)

mutual

/-- The characters of a value. What is inside itself has no form, and is written as null. -/
def write : Value → List Char
  | .scalar s => writeScalar s
  | .list items => '[' :: commaSeparated (writeItems items) ++ [']']
  | .pair a b => '[' :: write a ++ ',' :: write b ++ [']']
  | .set members => '[' :: commaSeparated (members.map writeScalar) ++ [']']
  | .table entries => '\x7b' :: commaSeparated (inKeyOrder (writeEntries entries)) ++ ['\x7d']
  | .link .. => writeScalar .null

/-- The texts of the items of a list. -/
def writeItems : List Value → List (List Char)
  | [] => []
  | v :: rest => write v :: writeItems rest

/-- The texts of the entries of a table, each with the key it is sorted by. -/
def writeEntries : List (Scalar × Value) → List (Scalar × List Char)
  | [] => []
  | (k, v) :: rest => (k, writeKey k ++ ':' :: write v) :: writeEntries rest

end

/-- The canonical text of a value. -/
def canonical (v : Value) : String := String.ofList (write v)

end BindGen.Json

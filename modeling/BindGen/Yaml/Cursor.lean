import BindGen.Text.Numeral
import BindGen.Value.Fault

/-!
# Cursors

A place in a YAML text: what follows it, and its line and column. The end of the text counts as a
NUL, which no text holds.
-/

namespace BindGen.Yaml

/-- A place in a text. -/
structure Cursor where
  rest : List Char
  index : Nat
  line : Nat
  column : Nat

/-- The failure of a text that breaks the rules. -/
def malformed {α : Type} : Except ReadProblem α := .error .malformed

/-- Whether a text may hold a character as it is. -/
def isAllowed (c : Char) : Bool :=
  let n := c.toNat
  n = 0x09 || n = 0x0A || n = 0x0D || (0x20 ≤ n && n ≤ 0x7E) || n = 0x85
    || (0xA0 ≤ n && n ≤ 0xFFFD) || 0x10000 ≤ n

/-- Whether a character ends a line. -/
def isBreak (c : Char) : Bool :=
  c == '\n' || c == '\r' || c == '\u0085' || c == '\u2028' || c == '\u2029'

/-- Whether a character breaks a line or ends the text. -/
def isBreakOrEnd (c : Char) : Bool := c == '\x00' || isBreak c

/-- Whether a character is a space, breaks a line or ends the text. -/
def isSpaceOrEnd (c : Char) : Bool := c == ' ' || isBreakOrEnd c

/-- Whether a character is a space or a tab, breaks a line or ends the text. -/
def isBlankOrEnd (c : Char) : Bool := c == '\t' || isSpaceOrEnd c

/-- Whether a character may stand in the name of an anchor or a directive. -/
def isNameChar (c : Char) : Bool :=
  ('a' ≤ c && c ≤ 'z') || ('A' ≤ c && c ≤ 'Z') || c.isDigit || c == '-' || c == '_'

/-- The number that hexadecimal digits write. -/
def hexNumber? (digits : List Char) : Option Nat :=
  digits.foldlM (fun n d => do return n * 16 + (← hexValue? d)) 0

namespace Cursor

/-- The beginning of a text. -/
def start (s : List Char) : Cursor := ⟨s, 0, 0, 0⟩

/-- The character a number of places ahead. -/
def peekAt (c : Cursor) (n : Nat) : Char := (c.rest[n]?).getD '\x00'

/-- The character that follows. -/
def peek (c : Cursor) : Char := c.peekAt 0

/-- The place behind the next character. A byte order mark takes no column. -/
def next (c : Cursor) : Cursor :=
  match c.rest with
  | [] => c
  | x :: rest =>
    if isBreak x then ⟨rest, c.index + 1, c.line + 1, 0⟩
    else if x = '\ufeff' then ⟨rest, c.index + 1, c.line, c.column⟩
    else ⟨rest, c.index + 1, c.line, c.column + 1⟩

/-- The place a number of characters ahead. -/
def advance (c : Cursor) : Nat → Cursor
  | 0 => c
  | n + 1 => c.next.advance n

/-- The run of characters of a class that starts here, and the place behind it. -/
def takeWhile (p : Char → Bool) (c : Cursor) : List Char × Cursor :=
  let run := c.rest.takeWhile p
  (run, c.advance run.length)

/-- The place behind the run of characters of a class that starts here. -/
def skipWhile (p : Char → Bool) (c : Cursor) : Cursor := (c.takeWhile p).2

/-- The place behind spaces. -/
def skipSpaces (c : Cursor) : Cursor := c.skipWhile (· == ' ')

/-- The line break that stands here, and the place behind it. Most breaks are read as a line
feed. -/
def lineBreak (c : Cursor) : List Char × Cursor :=
  let x := c.peek
  if x = '\u2028' ∨ x = '\u2029' then ([x], c.next)
  else if isBreak x then (['\n'], c.next)
  else ([], c)

/-- Whether three characters of a kind stand here, with a blank or the end behind them. -/
def atMark (c : Cursor) (x : Char) : Bool :=
  c.peek == x && c.peekAt 1 == x && c.peekAt 2 == x && isBlankOrEnd (c.peekAt 3)

/-- Whether a mark that separates documents stands here. -/
def atSeparator (c : Cursor) : Bool := c.atMark '-' || c.atMark '.'

/-- The end of a line on which nothing but a comment may follow. -/
def restOfLine (c : Cursor) : Except ReadProblem Cursor :=
  let c := c.skipSpaces
  let c := if c.peek = '#' then c.skipWhile (fun x => !isBreak x) else c
  if isBreakOrEnd c.peek then .ok c.lineBreak.2 else malformed

end Cursor
end BindGen.Yaml

import BindGen.Yaml.Quoted

/-!
# Block scalars of YAML

Scalars of several indented lines behind a bar or an angle. A bar keeps the line breaks; an angle
reads a single break between two lines without further indentation as a space. The header says
whether the breaks at the end are kept, and may give the indentation.
-/

namespace BindGen.Yaml

/-- What becomes of the line breaks at the end of a block scalar. -/
inductive Chomping where
  | clip
  | strip
  | keep
deriving DecidableEq

/-- The header of a block scalar. -/
structure BlockHeader where
  chomping : Chomping
  increment : Option Nat

/-- The chomping that an indicator asks for. -/
def chomping? : Char → Option Chomping
  | '+' => some .keep
  | '-' => some .strip
  | _ => none

/-- The digit of an indentation, if one stands here. -/
def increment (c : Cursor) : Except ReadProblem (Option Nat × Cursor) :=
  if c.peek.isDigit then
    if c.peek = '0' then malformed else .ok (some (c.peek.toNat - 48), c.next)
  else .ok (none, c)

/-- The header that stands here. -/
def blockHeader (c : Cursor) : Except ReadProblem (BlockHeader × Cursor) := do
  let (h, c) ←
    match chomping? c.peek with
    | some chomping =>
      let (increment, c) ← increment c.next
      pure (BlockHeader.mk chomping increment, c)
    | none =>
      let (increment, c) ← increment c
      match increment, chomping? c.peek with
      | some _, some chomping => pure (BlockHeader.mk chomping increment, c.next)
      | _, _ => pure (BlockHeader.mk .clip increment, c)
  if isSpaceOrEnd c.peek then return (h, c)
  malformed

/-- The breaks of empty lines in front of the first line, and the greatest indentation seen. -/
def firstBreaks : Nat → Nat → Cursor → List Char × Nat × Cursor
  | 0, deepest, c => ([], deepest, c)
  | fuel + 1, deepest, c =>
    if c.peek = ' ' then firstBreaks fuel (max deepest c.next.column) c.next
    else if isBreak c.peek then
      let (x, c) := c.lineBreak
      let (more, deepest, c) := firstBreaks fuel deepest c
      (x ++ more, deepest, c)
    else ([], deepest, c)

/-- The place behind spaces up to a column. -/
def skipIndent (indent : Nat) (c : Cursor) : Cursor :=
  c.advance ((c.rest.take (indent - c.column)).takeWhile (· == ' ')).length

/-- The breaks of empty lines, and the place behind the indentation of the next line. -/
def blockBreaks (indent : Nat) : Nat → Cursor → List Char × Cursor
  | 0, c => ([], c)
  | fuel + 1, c =>
    let c := skipIndent indent c
    if isBreak c.peek then
      let (x, c) := c.lineBreak
      let (more, c) := blockBreaks indent fuel c
      (x ++ more, c)
    else ([], c)

/-- The lines of a block scalar: their text without the last break, that break, the breaks of empty
lines behind it, and the place behind all. -/
def blockLines (folded : Bool) (indent : Nat) :
    Nat → List Char → Cursor → List Char × List Char × List Char × Cursor
  | 0, breaks, c => ([], [], breaks, c)
  | fuel + 1, breaks, c =>
    if c.column != indent || c.peek == '\x00' then ([], [], breaks, c)
    else
      let inset := c.peek == ' ' || c.peek == '\t'
      let (line, c) := c.takeWhile fun x => !isBreak x
      let (last, c) := c.lineBreak
      let (empty, c) := blockBreaks indent (c.rest.length + 1) c
      if c.column = indent && c.peek != '\x00' then
        let joined :=
          if folded && last == ['\n'] && !inset && c.peek != ' ' && c.peek != '\t' then
            if empty.isEmpty then [' '] else []
          else last
        let (more, last, empty, c) := blockLines folded indent fuel empty c
        (breaks ++ line ++ joined ++ more, last, empty, c)
      else (breaks ++ line, last, empty, c)

/-- The block scalar whose bar or angle stands here, inside the given indentation. -/
def blockScalar (indent : Int) (c : Cursor) : Except ReadProblem (List Char × Cursor) := do
  let folded := c.peek = '>'
  let (h, c) ← blockHeader c.next
  let c ← c.restOfLine
  let least := max (indent + 1) 1 |>.toNat
  let fuel := c.rest.length + 1
  let (breaks, indent, c) :=
    match h.increment with
    | none =>
      let (breaks, deepest, c) := firstBreaks fuel 0 c
      (breaks, max least deepest, c)
    | some n =>
      let indent := least + n - 1
      let (breaks, c) := blockBreaks indent fuel c
      (breaks, indent, c)
  let (body, last, empty, c) := blockLines folded indent fuel breaks c
  let body := if h.chomping = .strip then body else body ++ last
  return (if h.chomping = .keep then body ++ empty else body, c)

end BindGen.Yaml

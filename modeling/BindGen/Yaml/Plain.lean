import BindGen.Yaml.Quoted

/-!
# Plain scalars of YAML

Scalars without quotes. Such a scalar ends at a comment, at a colon with a blank behind it, at the
marks of flow collections inside one, and at a line that is not indented enough.
-/

namespace BindGen.Yaml

/-- Whether a character ends a plain scalar. -/
def endsPlain (inFlow : Bool) (x following : Char) : Bool :=
  isBlankOrEnd x
    || (x == ':' && (isBlankOrEnd following || (inFlow && ",[]\x7b\x7d".toList.contains following)))
    || (inFlow && ",?[]\x7b\x7d".toList.contains x)

/-- The characters of a plain scalar up to the next blank or its end. -/
def plainRun (inFlow : Bool) : List Char → List Char
  | [] => []
  | x :: rest =>
    if endsPlain inFlow x (rest.headD '\x00') then [] else x :: plainRun inFlow rest

/-- Further line breaks and spaces between the lines of a plain scalar; nothing if a document
ends. -/
def plainBreaks : Nat → Cursor → Option (List Char) × Cursor
  | 0, c => (none, c)
  | fuel + 1, c =>
    if c.peek = ' ' then plainBreaks fuel c.next
    else if isBreak c.peek then
      let (x, c) := c.lineBreak
      if c.atSeparator then (none, c)
      else
        let (more, c) := plainBreaks fuel c
        (more.map (x ++ ·), c)
    else (some [], c)

/-- What stands between two runs of a plain scalar: the text it is read as, the place behind it, and
whether there is a line break in it. -/
def plainSpace (c : Cursor) : List Char × Cursor × Bool :=
  let (spaces, c) := c.takeWhile (· == ' ')
  if isBreak c.peek then
    let (first, c) := c.lineBreak
    if c.atSeparator then ([], c, true)
    else
      let (more, c) := plainBreaks (c.rest.length + 1) c
      ((more.map (fold first)).getD [], c, true)
  else (spaces, c, false)

/-- A plain scalar as far as it is read. -/
structure PlainScalar where
  text : List Char
  cursor : Cursor
  /-- whether a simple key may follow, because the last thing read was a line break -/
  atLineStart : Bool

/-- The rest of a plain scalar, where the space in front of it is given. -/
def plainFrom (inFlow : Bool) (indent : Int) : Nat → List Char → Cursor → PlainScalar
  | 0, _, c => ⟨[], c, false⟩
  | fuel + 1, space, c =>
    let run := if c.peek = '#' then [] else plainRun inFlow c.rest
    if run.isEmpty then ⟨[], c, false⟩
    else
      let behind := c.advance run.length
      let (between, c, broken) := plainSpace behind
      let ended := between.isEmpty || c.peek == '#' || (!inFlow && (c.column : Int) < indent)
      if ended then ⟨space ++ run, c, broken⟩
      else
        let more := plainFrom inFlow indent fuel between c
        if more.text.isEmpty then ⟨space ++ run, more.cursor, broken⟩
        else ⟨space ++ run ++ more.text, more.cursor, more.atLineStart⟩

/-- The plain scalar that starts here, at the given indentation of its lines. -/
def plainScalar (inFlow : Bool) (indent : Int) (c : Cursor) : PlainScalar :=
  plainFrom inFlow indent (c.rest.length + 1) [] c

end BindGen.Yaml

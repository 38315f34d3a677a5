import BindGen.Yaml.Cursor

/-!
# Quoted scalars of YAML

Texts in single or double quotes, which may run over several lines. A single line break inside is
read as a space, and of several all but the first are kept. Double quotes know escapes.
-/

namespace BindGen.Yaml

/-- The character that a letter stands for behind a backslash. -/
def escaped? : Char → Option Char
  | '0' => some '\x00'
  | 'a' => some '\x07'
  | 'b' => some '\x08'
  | 't' | '\t' => some '\t'
  | 'n' => some '\n'
  | 'v' => some '\x0b'
  | 'f' => some '\x0c'
  | 'r' => some '\r'
  | 'e' => some '\x1b'
  | ' ' => some ' '
  | '"' => some '"'
  | '\\' => some '\\'
  | '/' => some '/'
  | 'N' => some '\u0085'
  | '_' => some '\u00a0'
  | 'L' => some '\u2028'
  | 'P' => some '\u2029'
  | _ => none

/-- The number of hexadecimal digits behind a letter behind a backslash. -/
def escapeWidth? : Char → Option Nat
  | 'x' => some 2
  | 'u' => some 4
  | 'U' => some 8
  | _ => none

/-- The character of a code point, which has to be a signed number of thirty-two bits. -/
def charOf (n : Nat) : Except ReadProblem Char :=
  if 0x80000000 ≤ n then .error (.fault .oversized)
  else if n < 0x110000 then .ok (if n.isValidChar then Char.ofNat n else '\ufffd')
  else .error (.fault (.invalid "chr() arg not in range(0x110000)"))

/-- The line breaks, with blanks around them, that stand at the beginning of a line. -/
def foldedBreaks : Nat → Cursor → Except ReadProblem (List Char × Cursor)
  | 0, _ => malformed
  | fuel + 1, c =>
    if c.atSeparator then malformed
    else
      let c := c.skipWhile fun x => x == ' ' || x == '\t'
      if isBreak c.peek then do
        let (x, c) := c.lineBreak
        let (more, c) ← foldedBreaks fuel c
        return (x ++ more, c)
      else .ok ([], c)

/-- What a line break and the further breaks behind it are read as. -/
def fold (first more : List Char) : List Char :=
  if first != ['\n'] then first ++ more else if more.isEmpty then [' '] else more

/-- The blanks and line breaks that stand here. -/
def quotedSpace (c : Cursor) : Except ReadProblem (List Char × Cursor) :=
  let (blanks, c) := c.takeWhile fun x => x == ' ' || x == '\t'
  if c.peek = '\x00' then malformed
  else if isBreak c.peek then do
    let (first, c) := c.lineBreak
    let (more, c) ← foldedBreaks (c.rest.length + 1) c
    return (fold first more, c)
  else .ok (blanks, c)

/-- The escape that stands here, behind its backslash. -/
def escape (c : Cursor) : Except ReadProblem (List Char × Cursor) :=
  match escaped? c.peek with
  | some x => .ok ([x], c.next)
  | none =>
    match escapeWidth? c.peek with
    | some width =>
      let digits := c.next.rest.take width
      match digits.length == width, hexNumber? digits with
      | true, some n => do return ([← charOf n], c.next.advance width)
      | _, _ => malformed
    | none =>
      if isBreak c.peek then
        let c := c.lineBreak.2
        foldedBreaks (c.rest.length + 1) c
      else malformed

/-- The body of a quoted scalar up to its closing quote. -/
def quotedBody (quote : Char) : Nat → Cursor → Except ReadProblem (List Char × Cursor)
  | 0, _ => malformed
  | fuel + 1, c =>
    let x := c.peek
    if x = quote then
      if quote = '\'' ∧ c.peekAt 1 = '\'' then do
        let (more, c) ← quotedBody quote fuel c.next.next
        return ('\'' :: more, c)
      else .ok ([], c.next)
    else if quote = '"' ∧ x = '\\' then do
      let (part, c) ← escape c.next
      let (more, c) ← quotedBody quote fuel c
      return (part ++ more, c)
    else if isBlankOrEnd x then do
      let (part, c) ← quotedSpace c
      let (more, c) ← quotedBody quote fuel c
      return (part ++ more, c)
    else do
      let (more, c) ← quotedBody quote fuel c.next
      return (x :: more, c)

/-- The quoted scalar whose opening quote stands here. -/
def quotedScalar (c : Cursor) : Except ReadProblem (List Char × Cursor) :=
  quotedBody c.peek (c.rest.length + 1) c.next

end BindGen.Yaml

import BindGen.Text.Utf8
import BindGen.Yaml.Cursor

/-!
# Tags, anchors and directives of YAML

The properties of a node, and the lines in front of a document that change how its tags are read.
-/

namespace BindGen.Yaml

/-- A line in front of a document. -/
inductive Directive where
  | version (major minor : Nat)
  | tag (handle stem : String)
  | other
deriving DecidableEq

/-- The name of an anchor or an alias, behind its mark. -/
def anchorName (c : Cursor) : Except ReadProblem (String × Cursor) :=
  let (name, c) := c.takeWhile isNameChar
  if name.isEmpty then malformed
  else if isBlankOrEnd c.peek || "?:,]\x7d%@`".toList.contains c.peek then
    .ok (String.ofList name, c)
  else malformed

/-- Whether a character may stand in a tag as it is. -/
def isTagChar (c : Char) : Bool :=
  isNameChar c || ";/?:@&=+$,.!~*'()[]".toList.contains c

/-- The bytes that percent signs with two digits write. -/
def percentBytes : Nat → Cursor → Except ReadProblem (Bytes × Cursor)
  | 0, _ => malformed
  | fuel + 1, c =>
    if c.peek = '%' then
      match hexValue? (c.peekAt 1), hexValue? (c.peekAt 2) with
      | some a, some b => do
        let (more, c) ← percentBytes fuel (c.advance 3)
        return ((a * 16 + b).toUInt8 :: more, c)
      | _, _ => malformed
    else .ok ([], c)

/-- The characters of a tag. -/
def tagChars : Nat → Cursor → Except ReadProblem (List Char × Cursor)
  | 0, _ => malformed
  | fuel + 1, c =>
    if c.peek = '%' then do
      let (bytes, c) ← percentBytes (c.rest.length + 1) c
      match Utf8.decode? bytes with
      | some s =>
        let (more, c) ← tagChars fuel c
        return (s ++ more, c)
      | none => malformed
    else if isTagChar c.peek then do
      let (more, c') ← tagChars fuel c.next
      return (c.peek :: more, c')
    else .ok ([], c)

/-- The text of a tag, which is not empty. -/
def tagText (c : Cursor) : Except ReadProblem (String × Cursor) := do
  let (s, c') ← tagChars (c.rest.length + 1) c
  if c'.index = c.index then malformed
  return (String.ofList s, c')

/-- The handle of a tag: what stands between two exclamation marks, or one of them by itself. -/
def tagHandle (c : Cursor) : Except ReadProblem (String × Cursor) :=
  if c.peek != '!' then malformed
  else if c.peekAt 1 = ' ' then .ok ("!", c.next)
  else
    let (name, c) := c.next.takeWhile isNameChar
    if c.peek = '!' then .ok (String.ofList ('!' :: name ++ ['!']), c.next) else malformed

/-- Whether a second exclamation mark follows before the next space. -/
def hasHandle (c : Cursor) : Bool :=
  (c.next.rest.takeWhile fun x => !isSpaceOrEnd x).contains '!'

/-- The tag that stands here: its handle, unless it is written out, and its text. -/
def tag (c : Cursor) : Except ReadProblem ((Option String × String) × Cursor) := do
  let (t, c) ←
    if c.peekAt 1 = '<' then do
      let (text, c) ← tagText (c.advance 2)
      if c.peek = '>' then pure ((none, text), c.next) else malformed
    else if isBlankOrEnd (c.peekAt 1) then pure ((none, "!"), c.next)
    else do
      let (handle, c) ← if hasHandle c then tagHandle c else pure ("!", c.next)
      let (text, c) ← tagText c
      pure ((some handle, text), c)
  if isSpaceOrEnd c.peek then return (t, c)
  malformed

/-- A number in decimal digits. -/
def decimal (c : Cursor) : Except ReadProblem (Nat × Cursor) :=
  let (ds, c) := c.takeWhile Char.isDigit
  if ds.isEmpty then malformed
  else .ok (ds.foldl (fun n d => n * 10 + (d.toNat - 48)) 0, c)

/-- What a directive says behind its name. -/
def directiveBody (name : String) (c : Cursor) : Except ReadProblem (Directive × Cursor) :=
  match name with
  | "YAML" => do
    let (major, c) ← decimal c.skipSpaces
    if c.peek != '.' then malformed
    let (minor, c) ← decimal c.next
    if isSpaceOrEnd c.peek then return (.version major minor, c)
    malformed
  | "TAG" => do
    let (handle, c) ← tagHandle c.skipSpaces
    if c.peek != ' ' then malformed
    let (stem, c) ← tagText c.skipSpaces
    if isSpaceOrEnd c.peek then return (.tag handle stem, c)
    malformed
  | _ => .ok (.other, c.skipWhile fun x => !isBreak x)

/-- The directive that stands here, with the rest of its line. -/
def directive (c : Cursor) : Except ReadProblem (Directive × Cursor) := do
  let (name, c) := c.next.takeWhile isNameChar
  if name.isEmpty || !isSpaceOrEnd c.peek then malformed
  let (d, c) ← directiveBody (String.ofList name) c
  return (d, ← c.restOfLine)

end BindGen.Yaml

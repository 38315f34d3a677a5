import BindGen.Yaml.Block
import BindGen.Yaml.Plain
import BindGen.Yaml.Tag

/-!
# Tokens of YAML

A text is cut into scalars, properties, marks, and the beginnings and ends of block collections,
which follow from the indentation. What stands in front of a colon is known to be a key only when
the colon is read; the token of the key is then inserted in front of it.
-/

namespace BindGen.Yaml

/-- A token. -/
inductive Token where
  | directive (d : Directive)
  | documentStart
  | documentEnd
  | blockSequenceStart
  | blockMappingStart
  | blockEnd
  | flowSequenceStart
  | flowSequenceEnd
  | flowMappingStart
  | flowMappingEnd
  | blockEntry
  | flowEntry
  | key
  | value
  | alias (name : String)
  | anchor (name : String)
  | tag (handle : Option String) (text : String)
  | scalar (text : List Char) (plain : Bool)
deriving DecidableEq

/-- The tokens of a text, as far as they can be told. What goes wrong behind them shows only to a
reader that gets that far. -/
structure TokenStream where
  tokens : List Token
  problem : Option ReadProblem

/-- What may turn out to be a key: where it stands, and the number of tokens in front of it. -/
structure KeyCandidate where
  tokens : Nat
  /-- whether no other reading is possible -/
  required : Bool
  index : Nat
  line : Nat
  column : Nat

/-- A text as far as it is cut into tokens. -/
structure Scanner where
  cursor : Cursor
  tokens : List Token
  /-- the number of flow collections around the place -/
  depth : Nat
  /-- the indentation of the block collection around the place, and those further out -/
  indent : Int
  outer : List Int
  /-- whether a key without a mark may start here -/
  allowsKey : Bool
  /-- the candidates by the number of flow collections around them -/
  candidates : List (Nat × KeyCandidate)

namespace Scanner

/-- The scanner at the beginning of a text. -/
def start (s : List Char) : Scanner := ⟨Cursor.start s, [], 0, -1, [], true, []⟩

/-- Whether the scanner is inside of brackets or braces. -/
def inFlow (s : Scanner) : Bool := s.depth != 0

/-- Puts a token behind the others. -/
def add (s : Scanner) (t : Token) : Scanner := { s with tokens := s.tokens ++ [t] }

/-- Adds a token for a mark of the given length. -/
def addMark (s : Scanner) (t : Token) (length : Nat) : Scanner :=
  { s with tokens := s.tokens ++ [t], cursor := s.cursor.advance length }

/-- Puts a token in front of those behind the first ones. -/
def insert (s : Scanner) (position : Nat) (t : Token) : Scanner :=
  { s with tokens := s.tokens.take position ++ t :: s.tokens.drop position }

/-- The place of the next token. Outside flow collections a line break lets a key start. -/
def skipToToken : Nat → Scanner → Scanner
  | 0, s => s
  | fuel + 1, s =>
    let c := s.cursor.skipSpaces
    let c := if c.peek = '#' then c.skipWhile (fun x => !isBreak x) else c
    if isBreak c.peek then
      skipToToken fuel { s with cursor := c.lineBreak.2, allowsKey := s.allowsKey || !s.inFlow }
    else { s with cursor := c }

/-- Whether a candidate is too far away to be a key. -/
def isStale (s : Scanner) (k : KeyCandidate) : Bool :=
  k.line != s.cursor.line || s.cursor.index - k.index > 1024

/-- The scanner without the candidates that are too far away. -/
def dropStale (s : Scanner) : Except ReadProblem Scanner :=
  if s.candidates.any fun (_, k) => s.isStale k && k.required then malformed
  else .ok { s with candidates := s.candidates.filter fun (_, k) => !s.isStale k }

/-- The scanner without the candidate of the current flow collection. -/
def dropCandidate (s : Scanner) : Except ReadProblem Scanner :=
  match s.candidates.lookup s.depth with
  | some k =>
    if k.required then malformed
    else .ok { s with candidates := s.candidates.filter (·.1 != s.depth) }
  | none => .ok s

/-- Notes that what starts here may be a key. -/
def noteCandidate (s : Scanner) : Except ReadProblem Scanner := do
  if !s.allowsKey then return s
  let cleared ← s.dropCandidate
  let c := s.cursor
  let required := !s.inFlow && s.indent == c.column
  let candidate : KeyCandidate := ⟨s.tokens.length, required, c.index, c.line, c.column⟩
  return { cleared with candidates := (s.depth, candidate) :: cleared.candidates }

/-- Closes the block collections that are indented more than a column. -/
def unwindFrom (column : Int) (s : Scanner) : List Int → Scanner
  | [] => s
  | next :: further =>
    if column < s.indent then
      unwindFrom column
        { s with tokens := s.tokens ++ [.blockEnd], indent := next, outer := further } further
    else s

/-- Closes the block collections that are indented more than a column; flow collections have
none. -/
def unwind (s : Scanner) (column : Int) : Scanner :=
  if s.inFlow then s else unwindFrom column s s.outer

/-- Whether a column is indented more than the current block collection. -/
def opensBlock (s : Scanner) (column : Nat) : Bool := s.indent < column

/-- Enters a block collection at a column. -/
def enterBlock (s : Scanner) (column : Nat) : Scanner :=
  { s with indent := column, outer := s.indent :: s.outer }

/-- Reads a directive. -/
def readDirective (s : Scanner) : Except ReadProblem Scanner := do
  let s ← (s.unwind (-1)).dropCandidate
  let (d, cursor) ← directive s.cursor
  return { (s.add (.directive d)) with cursor, allowsKey := false }

/-- Reads a mark between documents. -/
def readSeparator (s : Scanner) (t : Token) : Except ReadProblem Scanner := do
  let s ← (s.unwind (-1)).dropCandidate
  return { (s.addMark t 3) with allowsKey := false }

/-- Reads the beginning of a flow collection. -/
def readFlowStart (s : Scanner) (t : Token) : Except ReadProblem Scanner := do
  let s ← s.noteCandidate
  return { (s.addMark t 1) with depth := s.depth + 1, allowsKey := true }

/-- Reads the end of a flow collection. -/
def readFlowEnd (s : Scanner) (t : Token) : Except ReadProblem Scanner := do
  let s ← s.dropCandidate
  return { (s.addMark t 1) with depth := s.depth - 1, allowsKey := false }

/-- Reads a comma of a flow collection. -/
def readFlowEntry (s : Scanner) : Except ReadProblem Scanner := do
  let s ← s.dropCandidate
  return { (s.addMark .flowEntry 1) with allowsKey := true }

/-- Reads the mark of a block entry or of a key; outside flow collections it may open a block. -/
def readBlockMark (s : Scanner) (opening t : Token) (allowsKey : Bool) :
    Except ReadProblem Scanner := do
  let column := s.cursor.column
  if !s.inFlow && !s.allowsKey then malformed
  let s := if !s.inFlow && s.opensBlock column then (s.add opening).enterBlock column else s
  let s ← s.dropCandidate
  return { (s.addMark t 1) with allowsKey }

/-- Reads a colon behind a candidate, which thereby is a key. -/
def readValueOf (s : Scanner) (k : KeyCandidate) : Scanner :=
  let s := { s with candidates := s.candidates.filter (·.1 != s.depth) }
  let s := s.insert k.tokens .key
  let s :=
    if !s.inFlow && s.opensBlock k.column then
      (s.insert k.tokens .blockMappingStart).enterBlock k.column
    else s
  { (s.addMark .value 1) with allowsKey := false }

/-- Reads a colon. -/
def readValue (s : Scanner) : Except ReadProblem Scanner :=
  match s.candidates.lookup s.depth with
  | some k => .ok (s.readValueOf k)
  | none => s.readBlockMark .blockMappingStart .value (!s.inFlow)

/-- Reads something that may be a key, or a part of one. -/
def readContent (s : Scanner) (read : Cursor → Except ReadProblem (Token × Cursor)) :
    Except ReadProblem Scanner := do
  let s ← s.noteCandidate
  let (t, cursor) ← read s.cursor
  return { (s.add t) with cursor, allowsKey := false }

/-- Reads a block scalar. -/
def readBlockScalar (s : Scanner) : Except ReadProblem Scanner := do
  let s ← s.dropCandidate
  let (text, cursor) ← blockScalar s.indent s.cursor
  return { (s.add (.scalar text false)) with cursor, allowsKey := true }

/-- Reads a plain scalar. -/
def readPlain (s : Scanner) : Except ReadProblem Scanner := do
  let s ← s.noteCandidate
  let p := plainScalar s.inFlow (s.indent + 1) s.cursor
  return { (s.add (.scalar p.text true)) with cursor := p.cursor, allowsKey := p.atLineStart }

/-- Whether a plain scalar can start here. -/
def startsPlain (s : Scanner) : Bool :=
  let x := s.cursor.peek
  !(isBlankOrEnd x || "-?:,[]\x7b\x7d#&*!|>'\"%@`".toList.contains x)
    || (!isBlankOrEnd (s.cursor.peekAt 1)
        && (x == '-' || (!s.inFlow && (x == '?' || x == ':'))))

/-- Reads the token that starts here. -/
def readToken (s : Scanner) : Except ReadProblem Scanner :=
  let c := s.cursor
  let loose := s.inFlow || isBlankOrEnd (c.peekAt 1)
  match c.peek with
  | '[' => s.readFlowStart .flowSequenceStart
  | '\x7b' => s.readFlowStart .flowMappingStart
  | ']' => s.readFlowEnd .flowSequenceEnd
  | '\x7d' => s.readFlowEnd .flowMappingEnd
  | ',' => s.readFlowEntry
  | '*' => s.readContent fun c => (anchorName c.next).map fun (n, c) => (.alias n, c)
  | '&' => s.readContent fun c => (anchorName c.next).map fun (n, c) => (.anchor n, c)
  | '!' => s.readContent fun c => (tag c).map fun ((h, t), c) => (.tag h t, c)
  | '\'' => s.readContent fun c => (quotedScalar c).map fun (t, c) => (.scalar t false, c)
  | '"' => s.readContent fun c => (quotedScalar c).map fun (t, c) => (.scalar t false, c)
  | x =>
    if x = '%' ∧ c.column = 0 then s.readDirective
    else if c.column = 0 ∧ c.atMark '-' then s.readSeparator .documentStart
    else if c.column = 0 ∧ c.atMark '.' then s.readSeparator .documentEnd
    else if x = '-' ∧ isBlankOrEnd (c.peekAt 1) then
      s.readBlockMark .blockSequenceStart .blockEntry true
    else if x = '?' ∧ loose then s.readBlockMark .blockMappingStart .key (!s.inFlow)
    else if x = ':' ∧ loose then s.readValue
    else if (x = '|' ∨ x = '>') ∧ !s.inFlow then s.readBlockScalar
    else if s.startsPlain then s.readPlain
    else malformed

/-- The number of tokens that stay as they are: those in front of the first candidate, in front of
which a key may still be inserted. -/
def settled (s : Scanner) : Nat :=
  s.candidates.foldl (fun n (_, k) => min n k.tokens) s.tokens.length

/-- Reads the next token, or all that follows from the end of the text. -/
def readNext (s : Scanner) : Except ReadProblem (Scanner × Bool) := do
  let s ← (skipToToken (s.cursor.rest.length + 1) s).dropStale
  let s := s.unwind s.cursor.column
  if s.cursor.rest.isEmpty then
    return (← (s.unwind (-1)).dropCandidate, true)
  return (← s.readToken, false)

/-- Cuts the rest of a text into tokens, where a number of them is settled already. The fuel bounds
their number. -/
def run : Nat → Nat → Scanner → TokenStream
  | 0, known, s => ⟨s.tokens.take known, some .malformed⟩
  | fuel + 1, known, s =>
    match s.dropStale with
    | .error e => ⟨s.tokens.take known, some e⟩
    | .ok s =>
      let known := max known s.settled
      match s.readNext with
      | .error e => ⟨s.tokens.take known, some e⟩
      | .ok (s, true) => ⟨s.tokens, none⟩
      | .ok (s, false) => run fuel known s

end Scanner

/-- The tokens of a text. A byte order mark at its beginning is left out. -/
def tokens (s : List Char) : TokenStream :=
  if !s.all isAllowed then ⟨[], some .malformed⟩
  else
    let s := match s with
      | '\ufeff' :: rest => rest
      | s => s
    Scanner.run (s.length + 1) 0 (Scanner.start s)

end BindGen.Yaml

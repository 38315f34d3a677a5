import BindGen.Toml.Value

/-!
# Documents of TOML

A document is a sequence of headers and entries, one to a line. A header opens a table, or adds one
to a list of tables; the entries below it go there. No table is opened twice, no key is written
twice, and nothing enters a value that an entry wrote.
-/

namespace BindGen.Toml

/-- A key with its parts. -/
abbrev KeyPath := List String

/-- A document as far as it is read. -/
structure Progress where
  entries : Table Value
  /-- the table that entries go to -/
  header : KeyPath
  /-- the tables that a header has opened, or that dotted keys have made under an earlier header -/
  opened : List KeyPath
  /-- the tables that dotted keys have made since the last header -/
  pending : List KeyPath
  /-- the values that nothing may enter -/
  closed : List KeyPath

namespace Progress

/-- Whether a key leads into a closed value, or is one. -/
def isClosed (p : Progress) (path : KeyPath) : Bool :=
  p.closed.any (·.isPrefixOf path)

/-- The state at a new header: what was pending counts as opened. -/
def atHeader (p : Progress) : Progress := { p with opened := p.opened ++ p.pending, pending := [] }

/-- Opens a table. -/
def openTable (p : Progress) (path : KeyPath) : Except ReadProblem Progress := do
  if p.opened.contains path || p.isClosed path then malformed
  let entries ← updateUnder true .ok path p.entries
  return { p with entries, header := path, opened := p.opened ++ [path] }

/-- Adds a table to the list under a key. -/
def addItem (stem : String) (t : Table Value) : Except ReadProblem (Table Value) :=
  match Table.find? t stem with
  | none => .ok (Table.put t stem (.list [.table []]))
  | some (.list items) => .ok (Table.put t stem (.list (items ++ [.table []])))
  | some _ => malformed

/-- Adds a table to a list of tables. What was known of the tables below the list is forgotten. -/
def openItem (p : Progress) (path : KeyPath) : Except ReadProblem Progress := do
  if p.isClosed path then malformed
  let outside (k : KeyPath) : Bool := !path.isPrefixOf k
  let entries ← updateUnder true (addItem (path.getLastD "")) path.dropLast p.entries
  return { p with
    entries
    header := path
    opened := p.opened.filter outside ++ [path]
    closed := p.closed.filter outside }

/-- The tables that a dotted key makes below a header. -/
def tablesOn (header : KeyPath) (path : KeyPath) : List KeyPath :=
  (List.range (path.length - 1)).map fun i => header ++ path.take (i + 1)

/-- Adds an entry below the header. -/
def addEntry (p : Progress) (path : KeyPath) (v : Value) : Except ReadProblem Progress := do
  let on := tablesOn p.header path
  if on.any p.opened.contains then malformed
  let parent := p.header ++ path.dropLast
  if p.isClosed parent then malformed
  let entries ← updateUnder true (putFresh (path.getLastD "") v) parent p.entries
  return { p with
    entries
    pending := p.pending ++ on
    closed := if Toml.isClosed v then p.closed ++ [p.header ++ path] else p.closed }

end Progress

/-- Reads a header, whose opening brackets are read. -/
def header (p : Progress) (item : Bool) (s : List Char) :
    Except ReadProblem (Progress × List Char) := do
  let (path, rest) ← key (skipBlanks s)
  let p ← if item then p.atHeader.openItem path else p.atHeader.openTable path
  match item, rest with
  | true, ']' :: ']' :: rest => return (p, rest)
  | false, ']' :: rest => return (p, rest)
  | _, _ => malformed

/-- Reads the statement that starts here. -/
def statement (p : Progress) (s : List Char) : Except ReadProblem (Progress × List Char) := do
  match s with
  | '[' :: '[' :: rest => header p true rest
  | '[' :: rest => header p false rest
  | '#' :: _ => return (p, s)
  | s =>
    let ((path, v), rest) ← keyValue s
    return (← p.addEntry path v, rest)

/-- Reads the statements of a document. The fuel bounds their number. -/
def statements : Nat → Progress → List Char → Except ReadProblem Progress
  | 0, p, _ => .ok p
  | fuel + 1, p, s =>
    match skipBlanks s with
    | [] => .ok p
    | '\n' :: rest => statements fuel p rest
    | s => do
      let (p, rest) ← statement p s
      match ← skipComment (skipBlanks rest) with
      | [] => return p
      | '\n' :: rest => statements fuel p rest
      | _ => malformed

/-- The table that a document writes. -/
def read (s : List Char) : Except ReadProblem (Table Value) := do
  return (← statements (s.length + 1) ⟨[], [], [], [], []⟩ s).entries

end BindGen.Toml

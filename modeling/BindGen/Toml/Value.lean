import BindGen.Toml.Number

/-!
# Values of TOML

Scalars, arrays and inline tables. Inside an inline table a key with dots makes tables on its way,
but enters no table that a value of the same inline table has written.
-/

namespace BindGen.Toml

/-- The tables that a key leads through, with what the last of them becomes. A list on the way
stands for its last item if lists may be entered. -/
def updateUnder (enterLists : Bool) (change : Table Value → Except ReadProblem (Table Value)) :
    List String → Table Value → Except ReadProblem (Table Value)
  | [], t => change t
  | part :: rest, t =>
    match Table.find? t part with
    | none => do return Table.put t part (.table (← updateUnder enterLists change rest []))
    | some (.table inner) => do
      return Table.put t part (.table (← updateUnder enterLists change rest inner))
    | some (.list items) =>
      match enterLists, items.getLast? with
      | true, some (.table inner) => do
        let last ← updateUnder enterLists change rest inner
        return Table.put t part (.list (items.dropLast ++ [.table last]))
      | _, _ => malformed
    | some _ => malformed

/-- The table with a key that it must not have yet. -/
def putFresh (stem : String) (v : Value) (t : Table Value) : Except ReadProblem (Table Value) :=
  if Table.has t stem then malformed else .ok (Table.put t stem v)

/-- Whether a value has parts, so that no later key may lead into it. -/
def isClosed : Value → Bool
  | .table _ | .list _ => true
  | _ => false

/-- An inline table as far as it is read, with the keys of values that have parts. -/
structure InlineTable where
  entries : Table Value
  closed : List (List String)

/-- The inline table with a further key. -/
def InlineTable.add (t : InlineTable) (path : List String) (v : Value) :
    Except ReadProblem InlineTable := do
  if t.closed.any (·.isPrefixOf path) then malformed
  let entries ← updateUnder false (putFresh (path.getLastD "") v) path.dropLast t.entries
  return ⟨entries, if isClosed v then t.closed ++ [path] else t.closed⟩

/-- The room for arrays and inline tables that stand in each other. -/
def wholeRoom : Nat := 984

/-- The room that is left inside an array or inline table, which takes some of it. -/
def roomInside (taken room : Nat) : Except ReadProblem Nat :=
  if taken ≤ room then .ok (room - taken) else .error (.fault .endless)

mutual

/-- The value that starts here. The fuel bounds the number of steps. -/
def value : Nat → Nat → List Char → Except ReadProblem (Value × List Char)
  | 0, _, _ => malformed
  | fuel + 1, room, s =>
    match s with
    | '"' :: '"' :: '"' :: rest =>
      (longText '"' rest).map fun (t, after) => (.text (String.ofList t), after)
    | '"' :: rest =>
      (basicText false .plain rest).map fun (t, after) => (.text (String.ofList t), after)
    | '\'' :: '\'' :: '\'' :: rest =>
      (longText '\'' rest).map fun (t, after) => (.text (String.ofList t), after)
    | '\'' :: rest => (literalText rest).map fun (t, after) => (.text (String.ofList t), after)
    | 't' :: 'r' :: 'u' :: 'e' :: rest => .ok (.bool true, rest)
    | 'f' :: 'a' :: 'l' :: 's' :: 'e' :: rest => .ok (.bool false, rest)
    | '[' :: rest => do
      let room ← roomInside 2 room
      let (items, after) ← arrayItems fuel room (← skipFiller false rest)
      return (.list items, after)
    | '\x7b' :: rest =>
      match skipBlanks rest with
      | '\x7d' :: after => .ok (.table [], after)
      | rest => do
        let (t, after) ← inlineEntries fuel (← roomInside 3 room) ⟨[], []⟩ rest
        return (.table t.entries, after)
    | s => (bareScalar s).map fun (x, after) => (.scalar x, after)

/-- The items of an array up to its closing bracket. -/
def arrayItems : Nat → Nat → List Char → Except ReadProblem (List Value × List Char)
  | 0, _, _ => malformed
  | fuel + 1, room, s =>
    match s with
    | ']' :: after => .ok ([], after)
    | s => do
      let (item, rest) ← value fuel room s
      match ← skipFiller false rest with
      | ']' :: after => return ([item], after)
      | ',' :: rest =>
        let (items, after) ← arrayItems fuel room (← skipFiller false rest)
        return (item :: items, after)
      | _ => malformed

/-- The entries of an inline table up to its closing brace. -/
def inlineEntries :
    Nat → Nat → InlineTable → List Char → Except ReadProblem (InlineTable × List Char)
  | 0, _, _, _ => malformed
  | fuel + 1, room, t, s => do
    let (path, rest) ← key s
    match rest with
    | '=' :: rest =>
      let (v, rest) ← value fuel room (skipBlanks rest)
      let t ← t.add path v
      match skipBlanks rest with
      | '\x7d' :: after => return (t, after)
      | ',' :: rest => inlineEntries fuel room t (skipBlanks rest)
      | _ => malformed
    | _ => malformed

end

/-- A key with its value. -/
def keyValue (s : List Char) : Except ReadProblem ((List String × Value) × List Char) := do
  let (path, rest) ← key s
  match rest with
  | '=' :: rest =>
    let (v, rest) ← value (2 * rest.length + 2) wholeRoom (skipBlanks rest)
    return ((path, v), rest)
  | _ => malformed

end BindGen.Toml

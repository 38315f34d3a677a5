import BindGen.Generation.Basic

/-!
# Bodies of requests

What clients of the service send: which library to load, and what to generate from it. Texts have to
be texts; a truth value may also be given as a number or a word. Keys that are not known do not
count. A body that is read gives its request; of any other body the parts that are wrong are told,
where a part that is absent is told by the body.
-/

namespace BindGen.Service

/-- What is read from a body, or the parts of it that are wrong. -/
abbrev Reading (α : Type) := Except (List Value) α

namespace Reading

/-- Two readings of a body. The wrong parts of both are told. -/
def both {α β : Type} (x : Reading α) (y : Reading β) : Reading (α × β) :=
  match x, y with
  | .ok a, .ok b => .ok (a, b)
  | .error wrong, .ok _ => .error wrong
  | .ok _, .error wrong => .error wrong
  | .error wrong, .error more => .error (wrong ++ more)

/-- Readings of the members of a list. -/
def every {α : Type} : List (Reading α) → Reading (List α)
  | [] => .ok []
  | x :: rest => (both x (every rest)).map fun (a, as) => a :: as

end Reading

/-- The words for a truth value, in lower case. -/
def truthWords : List (String × Bool) :=
  [("0", false), ("f", false), ("n", false), ("no", false), ("off", false), ("false", false),
    ("1", true), ("t", true), ("y", true), ("on", true), ("yes", true), ("true", true)]

/-- The truth value that a value stands for. -/
def truth? : Value → Option Bool
  | .bool b => some b
  | .text s => truthWords.lookup (String.ofList (s.toList.map Char.toLower))
  | v => if v.same (.int 0) then some false else if v.same (.int 1) then some true else none

/-- A value as what it is read as; a value that cannot be read so is wrong itself. -/
def part {α : Type} (read : Value → Option α) (v : Value) : Reading α :=
  match read v with
  | some a => .ok a
  | none => .error [v]

/-- A part of a body that has to be there. -/
def required {α : Type} (read : Value → Reading α) (body : Table Value) (key : String) : Reading α :=
  match Table.find? body key with
  | some v => read v
  | none => .error [.table body]

/-- A text that may be absent or null. -/
def optionalText (body : Table Value) (key : String) : Reading (Option String) :=
  match Table.find? body key with
  | none | some .null => .ok none
  | some v => (part Value.text? v).map some

/-- The path that a text names, if it is not empty. Models `_optional_path`. -/
def pathOf (s : Option String) : Option Path :=
  match s with
  | none | some "" => none
  | some s => some (Path.ofText s)

/-- What to load. Models `InspectRequest`. -/
def loadRequest (body : Table Value) : Reading LoadRequest := do
  let library := required (part Value.text?) body "library_path"
  let crate := optionalText body "crate_name"
  let override := optionalText body "config_override"
  let (library, crate, override) ← library.both (crate.both override)
  return ⟨Path.ofText library, crate, pathOf override, none⟩

/-- The languages of a request: a list of at least one text. -/
def languages (v : Value) : Reading (List String) :=
  match v with
  | .list (first :: rest) => Reading.every ((first :: rest).map (part Value.text?))
  | v => .error [v]

/-- Whether formatters are run: unless the request says otherwise. -/
def formatting (body : Table Value) : Reading Bool :=
  part truth? ((Table.find? body "try_format_code").getD (.bool true))

/-- What to generate. Models `GenerateRequest`. -/
def generationRequest (body : Table Value) : Reading GenerationRequest := do
  let languages := required languages body "languages"
  let directory := required (part Value.text?) body "out_dir"
  let rest := languages.both (directory.both (formatting body))
  let (load, languages, directory, format) ← (loadRequest body).both rest
  return ⟨load, languages, Path.ofText directory, format⟩

/-- What a body is read as, if it is a table. -/
def ofBody {α : Type} (read : Table Value → Reading α) : Value → Reading α
  | .table body => read body
  | v => .error [v]

end BindGen.Service

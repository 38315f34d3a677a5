import BindGen.Value.Link
import BindGen.Yaml.Node
import BindGen.Yaml.Scalar

/-!
# Values of YAML

What the nodes of a document are worth. The entries of a mapping that stand under a merge key come
first, so that the mapping's own entries win over them; keys are scalars. Nodes with parts are
filled in the order in which they are met, those further in after all those further out, which
decides what goes wrong first. A node that stands in several places becomes one part with links to
it.
-/

namespace BindGen.Yaml

/-- How the text of a kind of scalars is read. -/
structure ScalarKind where
  name : String
  read : List Char → Except ReadProblem Scalar

/-- The kinds of scalars. -/
def scalarKinds : List ScalarKind :=
  [⟨"null", fun _ => .ok .null⟩, ⟨"bool", boolOf⟩, ⟨"int", intOf⟩, ⟨"float", floatOf⟩,
    ⟨"timestamp", timestampOf⟩, ⟨"binary", binaryOf⟩,
    ⟨"str", fun s => .ok (.text (String.ofList s))⟩]

/-- The kind of scalars with a tag. -/
def scalarKind? (tag : String) : Option ScalarKind :=
  scalarKinds.find? fun kind => tag == standardTag kind.name

/-- The kinds of values with parts, by the names of their tags. -/
def partKinds : List (String × PartKind) :=
  [("seq", .list), ("map", .table), ("set", .set), ("omap", .list), ("pairs", .list)]

/-- The kind of values with parts that have a tag. -/
def partKind? (tag : String) : Option PartKind :=
  partKinds.findSome? fun (name, kind) => if tag == standardTag name then some kind else none

/-- A document whose nodes are being given their values. -/
structure Builder where
  /-- the nodes, with merged entries in place of merge keys as far as mappings have been met -/
  nodes : Array Node
  /-- the values of the nodes that have been met -/
  values : Array (Option Value)
  /-- the nodes with parts that are still to be filled -/
  waiting : List Nat
  /-- what the links to filled nodes stand for -/
  links : Links

/-- A step of giving nodes their values. -/
abbrev BuildStep (α : Type) := StateT Builder (Except ReadProblem) α

namespace Builder

/-- Ends the construction, since no value is like this. -/
def fail {α : Type} : BuildStep α := throw .malformed

/-- The builder of a document. -/
def start (g : NodeGraph) : Builder :=
  ⟨g.nodes, Array.replicate g.nodes.size none, [], Array.replicate g.nodes.size .null⟩

/-- The node with a number. -/
def nodeAt (number : Nat) : BuildStep Node := do
  match (← get).nodes[number]? with
  | some n => return n
  | none => fail

/-- Changes the node with a number. -/
def changeNode (number : Nat) (change : Node → Node) : BuildStep Unit :=
  modify fun b => { b with nodes := b.nodes.modify number change }

/-- The entries of a mapping. -/
def entriesAt (number : Nat) : BuildStep (List (Nat × Nat)) := do
  match (← nodeAt number).content with
  | .mapping entries => return entries
  | _ => fail

/-- Whether the key of an entry has a tag. -/
def keyHasTag (name : String) (entry : Nat × Nat) : BuildStep Bool := do
  return (← nodeAt entry.1).tag == standardTag name

/-- Makes a key that is a single equals sign a text. -/
def settleKey (entry : Nat × Nat) : BuildStep Unit := do
  if ← keyHasTag "value" entry then
    changeNode entry.1 fun n => { n with tag := standardTag "str" }

mutual

/-- Puts the entries under the merge keys of a mapping in front of its own. The fuel bounds the
depth. -/
def mergeInto : Nat → Nat → BuildStep Unit
  | 0, _ => fail
  | fuel + 1, number => do
    let entries ← entriesAt number
    let merging ← entries.filterM (keyHasTag "merge")
    let own ← entries.filterM fun e => do return !(← keyHasTag "merge" e)
    own.forM settleKey
    changeNode number fun n => { n with content := .mapping own }
    let merged ← merging.mapM fun (_, v) => mergedFrom fuel v
    changeNode number fun n => { n with content := .mapping (merged.flatten ++ own) }

/-- The entries that a node under a merge key gives: those of a mapping, or of all mappings of a
list, of which the first one wins. -/
def mergedFrom : Nat → Nat → BuildStep (List (Nat × Nat))
  | 0, _ => fail
  | fuel + 1, number => do
    match (← nodeAt number).content with
    | .mapping _ =>
      mergeInto fuel number
      entriesAt number
    | .sequence items =>
      let parts ← items.mapM fun item => do
        let _ ← entriesAt item
        mergeInto fuel item
        entriesAt item
      return parts.reverse.flatten
    | .scalar _ => fail

end

/-- The text of a node that has to be a scalar: of a mapping, that under a single equals sign. -/
def textUnder : Nat → Nat → BuildStep (List Char)
  | 0, _ => fail
  | fuel + 1, number => do
    match (← nodeAt number).content with
    | .scalar s => return s
    | .mapping entries =>
      match ← entries.filterM (keyHasTag "value") with
      | (_, v) :: _ => textUnder fuel v
      | [] => fail
    | .sequence _ => fail

/-- The scalar that a node is. A moment has to be written at the node itself. -/
def scalarAt (number : Nat) (kind : ScalarKind) : BuildStep Scalar := do
  let s ← textUnder ((← get).nodes.size + 1) number
  match kind.name, (← nodeAt number).content with
  | "timestamp", .mapping _ => throw (.fault (.notText "list"))
  | _, _ => kind.read s

/-- The value of a node; one with parts is noted to be filled. -/
def valueAt (number : Nat) : BuildStep Value := do
  match ((← get).values[number]?).join with
  | some v => return v
  | none =>
    let tag := (← nodeAt number).tag
    let v ←
      match scalarKind? tag, partKind? tag with
      | some kind, _ => do pure (.scalar (← scalarAt number kind))
      | none, some kind =>
        modify fun b => { b with waiting := b.waiting ++ [number] }
        pure (.link number kind)
      | none, none => fail
    modify fun b => { b with values := b.values.setIfInBounds number (some v) }
    return v

/-- The items of a sequence. -/
def itemsAt (number : Nat) : BuildStep (List Nat) := do
  match (← nodeAt number).content with
  | .sequence items => return items
  | _ => fail

/-- The table that a mapping is; later entries win. -/
def tableAt (number : Nat) : BuildStep (Table Value) := do
  let _ ← entriesAt number
  mergeInto ((← get).nodes.size + 1) number
  (← entriesAt number).foldlM (fun t (k, v) => do
    match ← valueAt k with
    | .scalar key => return Table.put t key (← valueAt v)
    | _ => fail) []

/-- The pair that a mapping with a single entry is. -/
def pairAt (number : Nat) : BuildStep Value := do
  match ← entriesAt number with
  | [(k, v)] => return .pair (← valueAt k) (← valueAt v)
  | _ => fail

/-- What a node with parts holds. -/
def contentAt (number : Nat) : BuildStep Value := do
  let tag := (← nodeAt number).tag
  if tag == standardTag "seq" then return .list (← (← itemsAt number).mapM valueAt)
  else if tag == standardTag "map" then return .table (← tableAt number)
  else if tag == standardTag "set" then return .set (Table.keys (← tableAt number))
  else return .list (← (← itemsAt number).mapM pairAt)

/-- Fills the nodes that wait, and those that are met on the way. The fuel bounds their number. -/
def fillAll : Nat → BuildStep Unit
  | 0 => return
  | fuel + 1 => do
    match (← get).waiting with
    | [] => return
    | number :: rest =>
      modify fun b => { b with waiting := rest }
      let content ← contentAt number
      modify fun b => { b with links := b.links.setIfInBounds number content }
      fillAll fuel

/-- The value of a document, before links are resolved. -/
def build (g : NodeGraph) : BuildStep Value := do
  let v ← valueAt g.root
  fillAll (g.nodes.size + 1)
  return v

end Builder

/-- The value of the one document of a text, or null if there is none, with what its links stand
for. Only a document with aliases has any. -/
def read (s : List Char) : Except ReadProblem (Value × Links) := do
  match ← NodeGraph.ofText? s with
  | none => return (.null, #[])
  | some g =>
    let (v, b) ← (Builder.build g).run (Builder.start g)
    return if g.aliased then (v, b.links) else (b.links.resolve v, #[])

end BindGen.Yaml

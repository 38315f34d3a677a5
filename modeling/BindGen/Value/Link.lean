import BindGen.Value.Basic

/-!
# Links

What stands in several places of a value is kept once, under a label, and each place holds a link to
it. A change under a label thereby shows in every place. A value may even hold a link to something
that it is inside of. `Links.resolve` gives the plain value, in which only such links are left.
-/

namespace BindGen

namespace Value

mutual

/-- The value with other values in place of its links. -/
def mapLinks (f : Nat → PartKind → Value) : Value → Value
  | scalar s => scalar s
  | list items => list (mapLinksItems f items)
  | pair a b => pair (mapLinks f a) (mapLinks f b)
  | set members => set members
  | table entries => table (mapLinksEntries f entries)
  | link label kind => f label kind

/-- Changes the links of each item of a list. -/
def mapLinksItems (f : Nat → PartKind → Value) : List Value → List Value
  | [] => []
  | v :: rest => mapLinks f v :: mapLinksItems f rest

/-- Changes the links of each value of a table. -/
def mapLinksEntries (f : Nat → PartKind → Value) :
    List (Scalar × Value) → List (Scalar × Value)
  | [] => []
  | (k, v) :: rest => (k, mapLinks f v) :: mapLinksEntries f rest

end

/-- The value with its labels moved up. -/
def relabel (offset : Nat) (v : Value) : Value :=
  v.mapLinks fun label kind => link (label + offset) kind

mutual

/-- How deep the parts of a value are nested. -/
def depth : Value → Nat
  | list items => depthOfItems items + 1
  | pair a b => max (depth a) (depth b) + 1
  | table entries => depthOfEntries entries + 1
  | _ => 0

/-- The greatest depth of the items of a list. -/
def depthOfItems : List Value → Nat
  | [] => 0
  | v :: rest => max (depth v) (depthOfItems rest)

/-- The greatest depth of the values of a table. -/
def depthOfEntries : List (Scalar × Value) → Nat
  | [] => 0
  | (_, v) :: rest => max (depth v) (depthOfEntries rest)

end

end Value

/-- What links stand for, by label. -/
abbrev Links := Array Value

namespace Links

/-- What is kept under a label; nothing is kept under labels beyond the last. -/
def content (links : Links) (label : Nat) : Value := links[label]?.getD .null

/-- The entries of a value that is a table or a link to one. -/
def table? (links : Links) : Value → Option (Table Value)
  | .link label _ => (links.content label).table?
  | v => v.table?

/-- The value with the contents of its links in place of them, to a depth and outside of those whose
labels are given. -/
def resolveWithin (links : Links) : Nat → List Nat → Value → Value
  | 0, _, v => v
  | depth + 1, around, v =>
    v.mapLinks fun label kind =>
      if around.contains label then .link label kind
      else resolveWithin links depth (label :: around) (links.content label)

/-- The value with the contents of its links in place of them. A link to something around it is
left. -/
def resolve (links : Links) (v : Value) : Value :=
  if links.isEmpty then v else resolveWithin links (links.size + 1) [] v

/-- The table with the contents of its links in place of them. -/
def resolveTable (links : Links) (t : Table Value) : Table Value :=
  if links.isEmpty then t else Table.mapValues (resolve links) t

/-- A value of other links among these: what its links stand for is copied along, and only then
shared within the value. -/
def adopt (links source : Links) (v : Value) : Links × Value :=
  if source.isEmpty then (links, v)
  else (links ++ source.map (Value.relabel links.size), v.relabel links.size)

end Links
end BindGen

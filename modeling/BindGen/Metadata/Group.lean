import BindGen.Metadata.Item

/-!
# Groups

The items of a library belong to the crates linked into it. Grouping finds the namespace that each
crate declares and collects, crate by crate, the other items in their order. It refuses a crate with
two namespaces, an item of a crate without one, and an item that occurs twice.
-/

namespace BindGen

/-- The items of one crate. Models `MetadataGroup`. -/
structure Group where
  declared : NamespaceDecl
  items : List Item

namespace Group

/-- The crate that the group's namespace names. -/
def crateName (g : Group) : Value := g.declared.crateName

end Group

/-- Why items cannot be grouped. -/
inductive GroupingError where
  | twoNamespaces (crate first second : Value)
  | unknownNamespace (kind : Kind) (described : String) (crate : Value)
  | duplicate (kind : Kind) (described : String)
  | fault (f : Fault)

namespace GroupingError

/-- The wording of an error. -/
def message : GroupingError → String
  | twoNamespaces crate first second =>
    s!"Crate {crate.display} declares two namespaces: {first.display} and {second.display}"
  | unknownNamespace kind described crate =>
    s!"Unknown namespace for {kind.tag} `{described}` ({crate.display})"
  | duplicate kind described => s!"Duplicate metadata item: {kind.tag} `{described}`"
  | fault f => f.message

end GroupingError

namespace Grouping

private def orFault {α : Type} (x : Except Fault α) : Except GroupingError α := x.mapError .fault

/-- The namespace that an item declares: a namespace itself, or the one that an interface definition
file names. Models `_declared_namespace`. -/
def declaredBy : Item → Except Fault (Option NamespaceDecl)
  | .namespaceDecl d => .ok (some d)
  | .udlFile d => do return some ⟨← crateOfPath d.modulePath, d.namespaceName⟩
  | _ => .ok none

/-- Adds the namespace that an item declares to those of the items before it. -/
def declare (found : Table NamespaceDecl) (item : Item) :
    Except GroupingError (Table NamespaceDecl) := do
  let some d ← orFault (declaredBy item) | return found
  let crate ← orFault d.crateName.asKey
  match Table.find? found crate with
  | some earlier =>
    if earlier.name.equals d.name then return Table.put found crate d
    else throw (.twoNamespaces d.crateName earlier.name d.name)
  | none => return Table.put found crate d

/-- The namespaces that items declare, by crate. -/
def namespaces (items : List Item) : Except GroupingError (Table NamespaceDecl) :=
  items.foldlM declare []

/-- Puts an item behind the earlier ones of its crate. -/
def place (members : Table (List Item)) (item : Item) :
    Except GroupingError (Table (List Item)) :=
  match item with
  | .namespaceDecl _ => .ok members
  | item => do
    let crate ← orFault item.crateName
    let key ← orFault crate.asKey
    match Table.find? members key with
    | none => throw (.unknownNamespace item.kind item.described crate)
    | some earlier =>
      if earlier.any (·.same item) then throw (.duplicate item.kind item.described)
      else return Table.put members key (earlier ++ [item])

/-- The groups of a list of items, in the order of their crates. Models `group_metadata`. -/
def groups (items : List Item) : Except GroupingError (List Group) := do
  let declared ← namespaces items
  let members ← items.foldlM place (Table.mapValues (fun _ => []) declared)
  let sorted ← orFault (sortByKey Prod.fst declared)
  return sorted.map fun (crate, d) => ⟨d, (Table.find? members crate).getD []⟩

end Grouping
end BindGen

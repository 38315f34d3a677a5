import BindGen.Hash.Sha256
import BindGen.Interface.Basic
import BindGen.Json.Writer

/-!
# The content of an interface

The view of an interface as one table, in which the order of folding leaves no trace, and the
checksum of that view: the hash of its canonical JSON text.
-/

namespace BindGen.Interface

/-- A table in the order of its keys. Models `_sorted_dump`. -/
def sorted {α : Type} (table : Table α) : Except Fault (Table α) := sortByKey Prod.fst table

/-- The fields of all declarations of a table, in the order of their names. -/
def dump {α : Type} [Declaration α] (table : Table α) : Except Fault Value := do
  return .table (Table.mapValues (fun d => .table (Declaration.fields d)) (← sorted table))

/-- The content of an object. -/
def dumpObject (o : ObjectDefinition) : Except Fault Value := do
  return .table
    [("declaration", .table (Declaration.fields o.declaration)),
      ("constructors", ← dump o.constructors), ("methods", ← dump o.methods)]

/-- The content of an interface. Models `ComponentInterface.to_dict`. -/
def content (i : Interface) : Except Fault Value := do
  let functions ← dump i.functions
  let objects ← (← sorted i.objects).mapM fun (name, o) => do return (name, ← dumpObject o)
  return .table
    [("namespace", i.namespaceName), ("crate_name", i.crateName), ("functions", functions),
      ("objects", .table objects), ("records", ← dump i.records), ("enums", ← dump i.enums),
      ("callback_interfaces", ← dump i.callbackInterfaces), ("custom_types", ← dump i.customTypes)]

/-- The text that the checksum is taken of. -/
def canonicalText (i : Interface) : Except Fault (List Char) := do
  return Json.write (← i.content)

/-- The checksum of the content. Models `ComponentInterface.checksum`. -/
def checksum (i : Interface) : Except Fault String := do
  return Sha256.hexDigest (Utf8.encode (← i.canonicalText))

end BindGen.Interface

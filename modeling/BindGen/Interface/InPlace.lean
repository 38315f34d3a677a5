import BindGen.Interface.Basic

/-!
# Folding in place

How an interface takes in a group step by step. The steps change its tables in place, those of an
object too; one that fails ends the work, and whatever has been changed up to then stays changed.
Each item is looked up and compared before anything is written, so a step on one item is all or
nothing and is that of `Interface.addItem`; a group is worked off kind by kind, and comes to what
`Interface.addGroup` tells, with the same error.
-/

namespace BindGen.Interface

variable {σ τ α : Type}

/-- Steps that change a state in place and may fail. -/
abbrev Work (σ α : Type) := EStateM ConflictError σ α

/-- Work on a part of a state: what becomes of the part stands in the state, also if the work
fails. -/
def onPart (part : σ → τ) (replace : σ → τ → σ) (work : Work τ α) : Work σ α := fun s =>
  match work (part s) with
  | .ok a t => .ok a (replace s t)
  | .error e t => .error e (replace s t)

/-- Declares a name in a table. Models `ComponentInterface._declare`. -/
def takeDeclaration [Declaration α] (name : Value) (d : α) (label : String) :
    Work (Table α) Unit := do
  let key ← ofExcept (orFault name.asKey)
  match Table.find? (← get) key with
  | none => modify fun t => Table.put t key d
  | some existing =>
    match Declaration.merge? existing d with
    | some merged => modify fun t => Table.put t key merged
    | none => throw (.conflicting (label ++ name.display))

/-- Adds the declaration of an object, which keeps the members that it has. Models
`ComponentInterface._declare`. -/
def takeObject (d : ObjectDecl) : Work (Table ObjectDefinition) Unit := do
  let key ← ofExcept (orFault d.name.asKey)
  match Table.find? (← get) key with
  | none => modify fun t => Table.put t key ⟨d, [], []⟩
  | some existing =>
    match Declaration.merge? existing.declaration d with
    | some merged => modify fun t => Table.put t key { existing with declaration := merged }
    | none => throw (.conflicting ("object " ++ d.name.display))

/-- Adds an item. Models `ComponentInterface.add_item`. -/
def takeItem : Item → Work Interface Unit
  | .namespaceDecl _ => pure ()
  | .udlFile _ => pure ()
  | .function d =>
    onPart functions (fun i t => { i with functions := t }) (takeDeclaration d.name d "function ")
  | .record d =>
    onPart records (fun i t => { i with records := t }) (takeDeclaration d.name d "record ")
  | .enum d => onPart enums (fun i t => { i with enums := t }) (takeDeclaration d.name d "enum ")
  | .callbackInterface d =>
    onPart callbackInterfaces (fun i t => { i with callbackInterfaces := t })
      (takeDeclaration d.name d "callback interface ")
  | .customType d =>
    onPart customTypes (fun i t => { i with customTypes := t })
      (takeDeclaration d.name d "custom type ")
  | .object d => onPart objects (fun i t => { i with objects := t }) (takeObject d)
  | .constructor d => do
    let (key, o) ← ofExcept ((← get).owner d.selfName ("constructor " ++ d.name.display))
    onPart (fun _ => o.constructors)
      (fun i t => { i with objects := Table.put i.objects key { o with constructors := t } })
      (takeDeclaration d.name d ("constructor " ++ d.selfName.display ++ "."))
  | .method d => do
    let (key, o) ← ofExcept ((← get).owner d.selfName ("method " ++ d.name.display))
    onPart (fun _ => o.methods)
      (fun i t => { i with objects := Table.put i.objects key { o with methods := t } })
      (takeDeclaration d.name d ("method " ++ d.selfName.display ++ "."))

/-- Takes the names of a first group. Models `ComponentInterface._set_namespace`. -/
def takeNames (d : NamespaceDecl) : Work Interface Unit := do
  let i ← get
  if i.namespaceName.isNull then
    modify fun i => { i with namespaceName := d.name }
    modify fun i => { i with crateName := d.crateName }
  else if i.namespaceName.equals d.name then return
  else throw (.namespaceMismatch d.crateName i.namespaceName d.name)

/-- Adds the items of a group, one kind after the other. Models
`ComponentInterface.add_metadata`. -/
def takeGroup (g : Group) : Work Interface Unit := do
  takeNames g.declared
  forM foldOrder fun kind =>
    forM g.items fun item => if item.kind == kind then takeItem item else pure ()

end BindGen.Interface

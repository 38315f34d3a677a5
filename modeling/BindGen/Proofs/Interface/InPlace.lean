import BindGen.Interface.InPlace
import BindGen.Proofs.Run.Fold
import BindGen.Proofs.Value.Table

/-!
# Folding in place is folding

Work on one item is all or nothing: it leaves what `addItem` gives, or an error and the interface as
it was. The loop over the kinds of a group goes through the items in fold order, so that work on a
group ends as `addGroup` tells, with the same interface also after an error.
-/

namespace BindGen.Interface

variable {σ τ α : Type}

/-- The outcome of work that changes the state only if it succeeds. -/
def allOrNothing (s : σ) : Except ConflictError σ → EStateM.Result ConflictError σ Unit
  | .ok s' => .ok () s'
  | .error e => .error e s

/-- The outcome of work that keeps what it did before an error. -/
def outcome : σ × Option ConflictError → EStateM.Result ConflictError σ Unit
  | (s, none) => .ok () s
  | (s, some e) => .error e s

/-! ## One item -/

private theorem run_ofExcept (x : Except ConflictError α) (s : σ) :
    (ofExcept x : Work σ α).run s = match x with
      | .ok a => .ok a s
      | .error e => .error e s := by
  cases x <;> rfl

private theorem run_takeDeclaration [Declaration α] (t : Table α) (name : Value) (d : α)
    (label : String) :
    (takeDeclaration name d label).run t = allOrNothing t (declare t name d label) := by
  unfold takeDeclaration declare
  rw [EStateM.run_bind, run_ofExcept]
  cases orFault name.asKey with
  | error e => rfl
  | ok key =>
    simp only [ok_bind, EStateM.run_bind, EStateM.run_get]
    cases Table.find? t key with
    | none => rfl
    | some existing =>
      dsimp only
      cases Declaration.merge? existing d <;> rfl

private theorem run_takeObject (t : Table ObjectDefinition) (d : ObjectDecl) :
    (takeObject d).run t = allOrNothing t (declareObject t d) := by
  unfold takeObject declareObject
  rw [EStateM.run_bind, run_ofExcept]
  cases orFault d.name.asKey with
  | error e => rfl
  | ok key =>
    simp only [ok_bind, EStateM.run_bind, EStateM.run_get]
    cases Table.find? t key with
    | none => rfl
    | some existing =>
      dsimp only
      cases Declaration.merge? existing.declaration d <;> rfl

-- Work on a part that is all or nothing is so on the whole.
private theorem run_onPart {part : σ → τ} {replace : σ → τ → σ} {work : Work τ Unit} {s : σ}
    {x : Except ConflictError τ} (hwork : work.run (part s) = allOrNothing (part s) x)
    (hsame : replace s (part s) = s) :
    (onPart part replace work).run s = allOrNothing s (do return replace s (← x)) := by
  unfold EStateM.run onPart at *
  rw [hwork]
  cases x with
  | error e => exact congrArg (EStateM.Result.error e) hsame
  | ok t => rfl

/-- Only a scalar is a key. -/
theorem eq_scalar_of_asKey {v : Value} {key : Scalar} (h : orFault v.asKey = .ok key) :
    v = .scalar key := by
  cases v with
  | scalar s =>
    cases h
    rfl
  | _ => cases h

/-- An owner that is found is the object that its name is filed under. -/
theorem find?_of_owner_eq_ok {i : Interface} {selfName : Value} {member : String} {key : Scalar}
    {o : ObjectDefinition} (h : i.owner selfName member = .ok (key, o)) :
    selfName = .scalar key ∧ Table.find? i.objects key = some o := by
  unfold owner at h
  obtain ⟨k, hkey, h⟩ := exists_of_bind_eq_ok h
  cases hf : Table.find? i.objects k with
  | none =>
    rw [hf] at h
    cases h
  | some p =>
    rw [hf] at h
    cases h
    exact ⟨eq_scalar_of_asKey hkey, hf⟩

/-- Work on an item is all or nothing, and comes to what adding the item gives. -/
theorem run_takeItem (i : Interface) (item : Item) :
    (takeItem item).run i = allOrNothing i (i.addItem item) := by
  cases item with
  | namespaceDecl d => rfl
  | udlFile d => rfl
  | function d =>
    apply run_onPart (run_takeDeclaration i.functions d.name d _)
    rfl
  | record d =>
    apply run_onPart (run_takeDeclaration i.records d.name d _)
    rfl
  | enum d =>
    apply run_onPart (run_takeDeclaration i.enums d.name d _)
    rfl
  | callbackInterface d =>
    apply run_onPart (run_takeDeclaration i.callbackInterfaces d.name d _)
    rfl
  | customType d =>
    apply run_onPart (run_takeDeclaration i.customTypes d.name d _)
    rfl
  | object d =>
    apply run_onPart (run_takeObject i.objects d)
    rfl
  | constructor d =>
    simp only [takeItem, addItem, EStateM.run_bind, EStateM.run_get, run_ofExcept]
    cases ho : i.owner d.selfName ("constructor " ++ d.name.display) with
    | error e => rfl
    | ok found =>
      apply run_onPart
      · exact run_takeDeclaration found.2.constructors d.name d _
      · -- the object with the members that it has is the one that is there
        simp only [Table.put_of_find?_some (find?_of_owner_eq_ok ho).2]
  | method d =>
    simp only [takeItem, addItem, EStateM.run_bind, EStateM.run_get, run_ofExcept]
    cases ho : i.owner d.selfName ("method " ++ d.name.display) with
    | error e => rfl
    | ok found =>
      apply run_onPart
      · exact run_takeDeclaration found.2.methods d.name d _
      · simp only [Table.put_of_find?_some (find?_of_owner_eq_ok ho).2]

/-! ## A group -/

/-- Taking the names of a namespace sets both of them or leaves the interface as it was. -/
theorem run_takeNames (i : Interface) (d : NamespaceDecl) :
    (takeNames d).run i = allOrNothing i (i.setNamespace d) := by
  unfold takeNames setNamespace
  rw [EStateM.run_bind, EStateM.run_get]
  by_cases hnull : i.namespaceName.isNull
  · simp only [hnull, if_true]
    rfl
  · by_cases hsame : i.namespaceName.equals d.name
    · simp only [hnull, hsame]
      rfl
    · simp only [hnull, hsame]
      rfl

/-- Items one after the other, up to the first that fails. -/
theorem run_forM_takeItem (i : Interface) (items : List Item) :
    (forM items takeItem).run i = outcome (i.addItems items) := by
  induction items generalizing i with
  | nil => rfl
  | cons item rest ih =>
    rw [List.forM_cons, EStateM.run_bind, run_takeItem, addItems]
    cases i.addItem item with
    | error e => rfl
    | ok next => exact ih next

private theorem forM_filter (p : α → Bool) (as : List α) (work : α → Work σ Unit) :
    forM (as.filter p) work = forM as fun a => if p a then work a else pure () := by
  induction as with
  | nil => rfl
  | cons a rest ih =>
    by_cases h : p a
    · rw [List.filter_cons_of_pos h, List.forM_cons, List.forM_cons, ih, if_pos h]
    · rw [List.filter_cons_of_neg h, List.forM_cons, ih, if_neg h, pure_bind]

private theorem forM_flatMap {κ : Type} (f : κ → List α) (ks : List κ) (work : α → Work σ Unit) :
    forM (ks.flatMap f) work = forM ks fun k => forM (f k) work := by
  induction ks with
  | nil => rfl
  | cons k rest ih => rw [List.flatMap_cons, List.forM_append, List.forM_cons, ih]

/-- Work on a group ends as folding it tells, after an error too. -/
theorem run_takeGroup (i : Interface) (g : Group) :
    (takeGroup g).run i = outcome (i.addGroup g) := by
  unfold takeGroup addGroup
  simp only [← forM_filter, ← forM_flatMap]
  rw [EStateM.run_bind, run_takeNames]
  cases i.setNamespace g.declared with
  | error e => rfl
  | ok named => exact run_forM_takeItem named _

end BindGen.Interface

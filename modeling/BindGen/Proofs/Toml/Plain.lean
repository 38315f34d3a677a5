import BindGen.Proofs.Run.Fold
import BindGen.Proofs.Settings.Paths
import BindGen.Proofs.Value.Labels
import BindGen.Toml.Document

/-!
# Values of TOML are plain

No value that a document of TOML writes has links: the values of entries have none, and tables are
only ever made of those. What is put into a table under a key takes the place of what stood there,
so the keys of a table are pairwise different.
-/

namespace BindGen.Toml

open Value

/-- A value without links, in the tables of which keys are pairwise different. -/
inductive Plain : Value → Prop where
  | scalar (s : Scalar) : Plain (.scalar s)
  | list {items : List Value} : (∀ v ∈ items, Plain v) → Plain (.list items)
  | table {t : Table Value} : Table.Distinct t → (∀ e ∈ t, Plain e.2) → Plain (.table t)

variable {t : Table Value} {v : Value}

namespace Plain

private theorem of_find? (h : Plain (.table t)) {k : Scalar} (hv : Table.find? t k = some v) :
    Plain v := by
  cases h with
  | table _ ht =>
    obtain ⟨k', hm, -⟩ := Table.mem_of_find? hv
    exact ht _ hm

private theorem empty : Plain (.table []) :=
  .table Table.distinct_nil fun _ he => absurd he List.not_mem_nil

private theorem put (h : Plain (.table t)) (k : Scalar) (hv : Plain v) :
    Plain (.table (Table.put t k v)) := by
  cases h with
  | table hd ht =>
    refine .table (Table.distinct_put hd k v) fun e he => ?_
    rcases Table.snd_of_mem_put he with rfl | he
    · exact hv
    · exact ht e he

/-- A plain value has no links. -/
theorem bounded (h : Plain v) : Bounded 0 v := by
  induction h with
  | scalar s => exact .scalar s
  | list _ ih => exact .list ih
  | table _ _ ih => exact .table ih

/-- A plain value has no key twice. -/
theorem keyed (h : Plain v) : Keyed v := by
  induction h with
  | table hd _ ih => exact .table hd ih
  | _ => exact .other rfl

end Plain

variable {change : Table Value → Except ReadProblem (Table Value)}

private theorem yields_malformed {α : Type} {P : α → Prop} :
    Yields P (malformed : Except ReadProblem α) :=
  .error _

/-- Where a change keeps tables plain, so does the change under a key. -/
theorem plain_updateUnder (enterLists : Bool)
    (hc : ∀ t, Plain (.table t) → Yields (fun u => Plain (.table u)) (change t))
    (path : List String) (ht : Plain (.table t)) :
    Yields (fun u => Plain (.table u)) (updateUnder enterLists change path t) := by
  induction path generalizing t with
  | nil =>
    rw [updateUnder]
    exact hc t ht
  | cons part rest ih =>
    rw [updateUnder]
    split
    · exact (ih .empty).bind fun u hu => .ok (ht.put part hu)
    · next inner hfound => exact (ih (ht.of_find? hfound)).bind fun u hu => .ok (ht.put part hu)
    · next items hfound =>
      have hitems : ∀ x ∈ items, Plain x := by
        cases ht.of_find? hfound with
        | list hitems => exact hitems
      split
      · next inner hlast =>
        refine (ih (hitems _ (List.mem_of_getLast? hlast))).bind fun u hu => .ok (ht.put part ?_)
        refine .list (List.forall_mem_append.mpr ⟨fun x hx => ?_, ?_⟩)
        · exact hitems x (List.dropLast_subset items hx)
        · exact List.forall_mem_singleton.mpr hu
      · exact yields_malformed
    · exact yields_malformed

private theorem plain_putFresh (stem : String) (hv : Plain v) (t : Table Value)
    (ht : Plain (.table t)) :
    Yields (fun u => Plain (.table u)) (putFresh stem v t) := by
  rw [putFresh]
  split
  · exact yields_malformed
  · exact .ok (ht.put stem hv)

private theorem plain_addItem (stem : String) (t : Table Value) (ht : Plain (.table t)) :
    Yields (fun u => Plain (.table u)) (Progress.addItem stem t) := by
  have hnew : ∀ x ∈ [Value.table []], Plain x := List.forall_mem_singleton.mpr .empty
  rw [Progress.addItem]
  split
  · exact .ok (ht.put stem (.list hnew))
  · next items hfound =>
    refine .ok (ht.put stem (.list (List.forall_mem_append.mpr ⟨?_, hnew⟩)))
    cases ht.of_find? hfound with
    | list hitems => exact hitems
  · exact yields_malformed

private theorem plain_inlineAdd {t : InlineTable} (ht : Plain (.table t.entries))
    (path : List String)
    (hv : Plain v) : Yields (fun u => Plain (.table u.entries)) (t.add path v) := by
  have hput := plain_putFresh (path.getLastD "") hv
  rw [InlineTable.add]
  refine .check ?_
  exact (plain_updateUnder false hput path.dropLast ht).bind fun entries hentries => .ok hentries

/-- What is read with some fuel is plain. -/
structure ReadsPlain (fuel : Nat) : Prop where
  value : ∀ room s, Yields (fun r => Plain r.1) (value fuel room s)
  items : ∀ room s, Yields (fun r => ∀ v ∈ r.1, Plain v) (arrayItems fuel room s)
  entries : ∀ room t s, Plain (.table t.entries) →
    Yields (fun r => Plain (.table r.1.entries)) (inlineEntries fuel room t s)

private theorem readsPlain (fuel : Nat) : ReadsPlain fuel := by
  induction fuel with
  | zero =>
    refine ⟨fun _ _ => ?_, fun _ _ => ?_, fun _ _ _ _ => ?_⟩
    · rw [value]
      exact yields_malformed
    · rw [arrayItems]
      exact yields_malformed
    · rw [inlineEntries]
      exact yields_malformed
  | succ fuel ih =>
    refine ⟨fun room s => ?_, fun room s => ?_, fun room t s ht => ?_⟩
    · unfold value
      split
      · exact Yields.map fun _ => .scalar _
      · exact Yields.map fun _ => .scalar _
      · exact Yields.map fun _ => .scalar _
      · exact Yields.map fun _ => .scalar _
      · exact .ok (.scalar _)
      · exact .ok (.scalar _)
      · exact .next fun room => .next fun rest => (ih.items room rest).bind fun _ hitems =>
          .ok (.list hitems)
      · split
        · exact .ok .empty
        · exact .next fun room => (ih.entries room _ _ .empty).bind fun _ ht => .ok ht
      · exact Yields.map fun _ => .scalar _
    · unfold arrayItems
      split
      · exact .ok fun _ h => absurd h List.not_mem_nil
      · refine (ih.value room _).bind fun item hitem => .next fun rest => ?_
        split
        · exact .ok (List.forall_mem_singleton.mpr hitem)
        · exact .next fun rest => (ih.items room rest).bind fun _ hitems =>
            .ok (List.forall_mem_cons.mpr ⟨hitem, hitems⟩)
        · exact yields_malformed
    · unfold inlineEntries
      refine .next fun ⟨path, rest⟩ => ?_
      dsimp only
      split
      · refine (ih.value room _).bind fun v hv => (plain_inlineAdd ht _ hv).bind fun t ht => ?_
        split
        · exact .ok ht
        · exact ih.entries room t _ ht
        · exact yields_malformed
      · exact yields_malformed

private theorem plain_keyValue (s : List Char) : Yields (fun r => Plain r.1.2) (keyValue s) := by
  rw [keyValue]
  refine .next fun ⟨path, rest⟩ => ?_
  dsimp only
  split
  · exact ((readsPlain _).value _ _).bind fun v hv => .ok hv
  · exact yields_malformed

/-! ## Documents -/

variable {p : Progress}

private theorem plain_openTable (hp : Plain (.table p.entries)) (path : KeyPath) :
    Yields (fun q => Plain (.table q.entries)) (p.openTable path) := by
  rw [Progress.openTable]
  refine .check ?_
  exact (plain_updateUnder true (fun t ht => .ok ht) path hp).bind fun entries h => .ok h

private theorem plain_openItem (hp : Plain (.table p.entries)) (path : KeyPath) :
    Yields (fun q => Plain (.table q.entries)) (p.openItem path) := by
  rw [Progress.openItem]
  refine .check ?_
  exact (plain_updateUnder true (plain_addItem _) path.dropLast hp).bind fun entries h => .ok h

private theorem plain_addEntry (hp : Plain (.table p.entries)) (path : KeyPath) (hv : Plain v) :
    Yields (fun q => Plain (.table q.entries)) (p.addEntry path v) := by
  rw [Progress.addEntry]
  refine .check (.check ?_)
  exact (plain_updateUnder true (plain_putFresh _ hv) _ hp).bind fun entries h => .ok h

private theorem plain_header (hp : Plain (.table p.entries)) (item : Bool) (s : List Char) :
    Yields (fun r => Plain (.table r.1.entries)) (header p item s) := by
  rw [header]
  refine .next fun ⟨path, rest⟩ => ?_
  dsimp only
  have hheader : Plain (.table p.atHeader.entries) := hp
  cases item with
  | true =>
    refine (plain_openItem hheader path).bind fun q hq => ?_
    split
    · exact .ok hq
    · contradiction
    · exact yields_malformed
  | false =>
    refine (plain_openTable hheader path).bind fun q hq => ?_
    split
    · contradiction
    · exact .ok hq
    · exact yields_malformed

private theorem plain_statement (hp : Plain (.table p.entries)) (s : List Char) :
    Yields (fun r => Plain (.table r.1.entries)) (statement p s) := by
  unfold statement
  split
  · exact plain_header hp true _
  · exact plain_header hp false _
  · exact .ok hp
  · exact (plain_keyValue _).bind fun _ hv => (plain_addEntry hp _ hv).bind fun q hq => .ok hq

private theorem plain_statements (fuel : Nat) (hp : Plain (.table p.entries)) (s : List Char) :
    Yields (fun q => Plain (.table q.entries)) (statements fuel p s) := by
  induction fuel generalizing p s with
  | zero =>
    rw [statements]
    exact .ok hp
  | succ fuel ih =>
    unfold statements
    split
    · exact .ok hp
    · exact ih hp _
    · refine (plain_statement hp _).bind fun r hr => .next fun rest => ?_
      split
      · exact .ok hr
      · exact ih hr _
      · exact yields_malformed

/-- A document has no links. -/
theorem plain_read (s : List Char) : Yields (fun t => Plain (.table t)) (read s) :=
  (plain_statements _ .empty s).bind fun _ hp => .ok hp

end BindGen.Toml

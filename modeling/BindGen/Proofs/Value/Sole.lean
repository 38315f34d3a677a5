import BindGen.Proofs.Value.View

/-!
# The only way to a table

A table with a label may stand in several places, and what is written to it shows in all of them.
Where a table meets one of another view on a path, a write shows on that path alone if no other
steps lead to the label of the table. What stands under keys at which nothing meets is then left
alone.
-/

namespace BindGen

namespace Value.View

variable {u w w' : View} {k key : Scalar} {path : List Scalar} {depth : Nat}

/-- Both views show tables at the end of a path of keys. -/
def Meets (u w : View) (path : List Scalar) : Prop :=
  u (path.map .key) = some .table ∧ w (path.map .key) = some .table

/-- Tables meet at the end of some path of a length. -/
def Deep (depth : Nat) (u w : View) : Prop := ∃ path : List Scalar, path.length = depth ∧ u.Meets w path

end Value.View

namespace Links

open Value

variable {l l' source : Links} {v c : Value} {w w' : View} {t entries : Table Value}
  {k key : Scalar} {steps : List Step} {label place : Nat}

/-! ## Tables and their keys -/

/-- What is seen under a key of a table. -/
def under (l : Links) (t : Table Value) (key : Scalar) : Option View := (Table.find? t key).map l.view

/-- A table is a table of its own entries. -/
theorem table?_table (l : Links) (t : Table Value) : l.table? (.table t) = some t := rfl

/-- A link to a table is a table of its entries. -/
theorem table?_link (ht : l.content place = .table t) (kind : PartKind) :
    l.table? (.link place kind) = some t := by
  rw [Links.table?, ht]
  rfl

private theorem at?_key (ht : l.table? v = some t) (k : Scalar) (steps : List Step) :
    l.at? v (.key k :: steps) = (Table.find? t k).bind fun c => l.at? c steps := by
  rw [at?_cons, child?_key_of_table? ht]

/-- A table has no items. -/
theorem at?_place (ht : l.table? v = some t) (n : Nat) (steps : List Step) :
    l.at? v (.place n :: steps) = none := by
  rw [at?_cons, child?_place_of_table? ht]
  rfl

/-- The label below a key of a table is the one below what stands there. -/
theorem labelAt_key (ht : l.table? v = some t) (k : Scalar) (steps : List Step) :
    l.labelAt v (.key k :: steps) = (Table.find? t k).bind fun c => l.labelAt c steps := by
  rw [labelAt_cons, child?_key_of_table? ht]

/-- The view below a key of a table is the view of what stands there. -/
theorem view_key (ht : l.table? v = some t) (k : Scalar) (steps : List Step) :
    l.view v (.key k :: steps) = (l.under t k).bind (· steps) := by
  rw [view, at?_key ht, under]
  cases Table.find? t k <;> rfl

/-- A table looks like a table. -/
theorem isTable_view (ht : l.table? v = some t) : (l.view v).IsTable := isTable_view_iff.mpr ⟨t, ht⟩

/-- Keys that are the same have the same under them. -/
theorem under_congr (l : Links) (t : Table Value) (h : k.same key = true) :
    l.under t k = l.under t key := by
  rw [under, under, Table.find?_congr h]

/-- What a table has under a key is the first entry with that key. -/
theorem under_cons (l : Links) (t : Table Value) (e : Scalar × Value) (key : Scalar) :
    l.under (e :: t) key = if e.1.same key then some (l.view e.2) else l.under t key := by
  obtain ⟨k, v⟩ := e
  rw [under, Table.find?]
  split <;> rfl

/-- A key of the table leads to a label. -/
theorem exists_of_labelAt_key (ht : l.table? v = some t)
    (h : l.labelAt v (.key k :: steps) = some label) :
    ∃ c, Table.find? t k = some c ∧ l.labelAt c steps = some label := by
  rw [labelAt_key ht] at h
  exact Option.bind_eq_some_iff.mp h

/-- All that is reached from a table is reached from what stands under its keys, but the table
itself. -/
theorem Reaches.exists_key (ht : l.table? v = some t) (h : l.Reaches v label) :
    v.label? = some label ∨ ∃ key c, Table.find? t key = some c ∧ l.Reaches c label := by
  obtain ⟨steps, hsteps⟩ := h
  cases steps with
  | nil => exact .inl hsteps
  | cons step steps =>
    cases step with
    | place n =>
      rw [labelAt, at?_place ht] at hsteps
      cases hsteps
    | key key =>
      obtain ⟨c, hc, hsteps⟩ := exists_of_labelAt_key ht hsteps
      exact .inr ⟨key, c, hc, steps, hsteps⟩

/-- Links that can be read as they are: all are there, none stands for another one, and the keys of
the tables are pairwise different. -/
structure Regular (l : Links) : Prop where
  closed : l.Closed
  direct : l.Direct
  keyed : ∀ label, Keyed (l.content label)

/-- The table of a keyed value is keyed where the links are regular. -/
theorem Regular.keyed_table? (h : l.Regular) (hv : Keyed v) (ht : l.table? v = some t) :
    Keyed (.table t) := by
  rw [table?_eq, table?_eq_some_iff] at ht
  cases v with
  | link label _ => exact ht ▸ h.keyed label
  | _ => exact ht ▸ hv

/-! ## The only way to a table -/

/-- Steps that follow a path of keys. -/
def Along : List Scalar → List Step → Prop :=
  List.Forall₂ fun k step => ∃ key, step = .key key ∧ k.same key = true

/-- A label that is written to when a value is merged into: it stands where tables meet. -/
def Written (l : Links) (v : Value) (w : View) (label : Nat) : Prop :=
  ∃ path : List Scalar, (l.view v).Meets w path ∧ l.labelAt v (path.map .key) = some label

/-- Where a labelled table meets one of a view there is no other way to the label. -/
def Sole (l : Links) (v : Value) (w : View) : Prop :=
  ∀ (path : List Scalar) (label : Nat), (l.view v).Meets w path →
    l.labelAt v (path.map .key) = some label →
      ∀ steps, l.labelAt v steps = some label → Along path steps

private theorem label?_link (inner : Nat) (kind : PartKind) :
    (link inner kind).label? = some inner := rfl

/-- A value with a label is a link. -/
theorem exists_eq_link (h : v.label? = some label) : ∃ kind, v = .link label kind := by
  cases v with
  | link inner kind =>
    obtain rfl := Option.some.inj h
    exact ⟨kind, rfl⟩
  | _ => cases h

/-- A value without a label holds itself. -/
theorem held_of_unlinked (l : Links) (h : v.label? = none) : l.held v = v := by
  cases v with
  | link label kind => cases h
  | _ => rfl

/-- Of a link only the label matters. -/
theorem labelAt_link (l : Links) (inner : Nat) (kind kind' : PartKind) (steps : List Step) :
    l.labelAt (.link inner kind) steps = l.labelAt (.link inner kind') steps := by
  cases steps with
  | nil => rfl
  | cons step steps =>
    have hheld : l.held (.link inner kind) = l.held (.link inner kind') := rfl
    rw [labelAt_cons, labelAt_cons, child?_congr hheld]

namespace Sole

/-- Fewer tables that meet leave fewer labels to look at. -/
theorem mono (h : Sole l v w)
    (hmeets : ∀ path, (l.view v).Meets w' path → (l.view v).Meets w path) : Sole l v w' :=
  fun path label hpath hlabel => h path label (hmeets path hpath) hlabel

/-- A table that is merged into is not in itself. -/
theorem not_reaches_self (h : Sole l (.link place .table) w) (ht : l.content place = .table t)
    (hw : w.IsTable) (hc : Table.find? t key = some c) : ¬l.Reaches c place := by
  rintro ⟨steps, hsteps⟩
  have htable := table?_link ht .table
  have halong := h [] place ⟨isTable_view htable, hw⟩ rfl (.key key :: steps) (by
    rw [labelAt_key htable, hc]
    exact hsteps)
  cases halong

/-- What is reached under a key and is written to is written to under the key. -/
theorem exists_same (h : Sole l v w) (ht : l.table? v = some t) {path : List Scalar}
    (hc : Table.find? t key = some c) (hr : l.Reaches c label) (hmeets : (l.view v).Meets w path)
    (hlabel : l.labelAt v (path.map .key) = some label) :
    ∃ k rest, path = k :: rest ∧ k.same key = true := by
  obtain ⟨steps, hsteps⟩ := hr
  have halong := h path label hmeets hlabel (.key key :: steps) (by
    rw [labelAt_key ht, hc]
    exact hsteps)
  cases halong with
  | cons hstep _ =>
    obtain ⟨k', hk', hsame⟩ := hstep
    cases hk'
    exact ⟨_, _, rfl, hsame⟩

/-- What stands under a key that the source lacks is left alone. -/
theorem unchanged (h : Sole l v (source.view (.table entries))) (ht : l.table? v = some t)
    (hl : l.Closed) (hv : Bounded l.size v)
    (hframe : ∀ label < l.size, ¬Written l v (source.view (.table entries)) label →
      l'.content label = l.content label)
    (hkey : Table.find? entries key = none) (hc : Table.find? t key = some c) :
    Unchanged l c l' := by
  intro label hr
  refine hframe label (hl.lt_of_reaches ((hl.table? hv ht).of_find? hc) hr) ?_
  rintro ⟨path, hmeets, hlabel⟩
  obtain ⟨k, rest, rfl, hsame⟩ := h.exists_same ht hc hr hmeets hlabel
  have hmeets' := hmeets.2
  rw [List.map_cons, view_key (source.table?_table entries), under, Table.find?_congr hsame, hkey]
    at hmeets'
  cases hmeets'

end Sole

/-- A value that is no link stands under a new label, and nothing in it has changed. -/
structure Boxed (l : Links) (v : Value) (l' : Links) (inner : Nat) : Prop where
  new : l.size ≤ inner
  content : l'.content inner = v
  unlinked : v.label? = none
  unchanged : Unchanged l v l'

namespace Boxed

variable {inner : Nat}

private theorem held_eq (h : Boxed l v l' inner) (kind : PartKind) :
    l'.held (.link inner kind) = l'.held v := by
  rw [held_of_unlinked l' h.unlinked]
  exact h.content

/-- A boxed value looks as it did. -/
theorem view (h : Boxed l v l' inner) : l'.view (.link inner .table) = l.view v :=
  (view_congr (h.held_eq .table)).trans h.unchanged.view

private theorem labelAt_cons (h : Boxed l v l' inner) (step : Step) (steps : List Step) :
    l'.labelAt (.link inner .table) (step :: steps) = l.labelAt v (step :: steps) := by
  rw [← h.unchanged.labelAt, Links.labelAt_cons, Links.labelAt_cons, child?_congr (h.held_eq .table)]

/-- To the labels that were there the ways are the same. -/
theorem labelAt_iff (h : Boxed l v l' inner) (steps : List Step) (hlabel : label < l.size) :
    l'.labelAt (.link inner .table) steps = some label ↔ l.labelAt v steps = some label := by
  cases steps with
  | nil =>
    rw [labelAt_nil, labelAt_nil, label?_link, h.unlinked]
    refine ⟨fun heq => ?_, nofun⟩
    obtain rfl := Option.some.inj heq
    exact absurd h.new (Nat.not_le.mpr hlabel)
  | cons step steps => rw [h.labelAt_cons]

/-- To the new label there is one way. -/
theorem eq_nil_of_labelAt (h : Boxed l v l' inner) (hl : l.Closed) (hv : Bounded l.size v)
    (hsteps : l'.labelAt (.link inner .table) steps = some inner) : steps = [] := by
  cases steps with
  | nil => rfl
  | cons step steps =>
    rw [h.labelAt_cons] at hsteps
    exact absurd (hl.lt_of_reaches hv ⟨_, hsteps⟩) (Nat.not_lt.mpr h.new)

/-- What stands alone does so after the value is boxed. -/
theorem sole (h : Boxed l v l' inner) (hl : l.Closed) (hv : Bounded l.size v) (hsole : Sole l v w) :
    Sole l' (.link inner .table) w := by
  intro path label hmeets hlabel steps hsteps
  rw [h.view] at hmeets
  cases path with
  | nil =>
    obtain rfl : inner = label := Option.some.inj hlabel
    rw [h.eq_nil_of_labelAt hl hv hsteps]
    exact .nil
  | cons k path =>
    rw [List.map_cons, h.labelAt_cons] at hlabel
    have hin : label < l.size := hl.lt_of_reaches hv ⟨_, hlabel⟩
    exact hsole (k :: path) label hmeets hlabel steps ((h.labelAt_iff steps hin).mp hsteps)

end Boxed

end Links
end BindGen

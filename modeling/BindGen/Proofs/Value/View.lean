import BindGen.Proofs.Value.Growth

/-!
# Views

The view of a value is what can be seen at the end of steps into it. Values look alike if they have
one view, whatever links they are written with. A view depends on what the links of the value lead
to only; a copy in other links has the view of the value, and a table that takes a value with the
view of the one that it had under a key looks as before, wherever it stands.

One view can be laid over another: tables are laid over each other key by key, and elsewhere the
upper one is all that is seen. Laying the same view over or under once more changes nothing.
-/

namespace BindGen

namespace Value

/-- What is seen at the end of steps. -/
abbrev View := List Step → Option Form

namespace View

variable {u v : View} {step : Step} {steps : List Step} {form : Form}

/-- What is seen beyond a first step. -/
def beyond (v : View) (step : Step) : View := fun steps => v (step :: steps)

/-- Views are told apart by what is seen at once and beyond each step. -/
theorem eq_of_beyond (hnil : u [] = v []) (hstep : ∀ step, u.beyond step = v.beyond step) : u = v := by
  funext steps
  cases steps with
  | nil => exact hnil
  | cons step steps => exact congrFun (hstep step) steps

/-- A table is seen. -/
def IsTable (v : View) : Prop := v [] = some .table

/-- One view laid over another. -/
def above : View → View → View
  | upper, _, [] => upper []
  | upper, lower, step :: steps =>
    match upper [], lower [], upper [step], lower [step] with
    | some .table, some .table, none, _ => lower (step :: steps)
    | some .table, some .table, some _, some _ =>
      above (upper.beyond step) (lower.beyond step) steps
    | _, _, _, _ => upper (step :: steps)

/-- At its root a layer hides what is below it. -/
@[simp] theorem above_nil (u v : View) : u.above v [] = u [] := by rw [above]

/-- A layer hides what is below it unless both are tables. -/
theorem above_of_not_isTable (h : ¬u.IsTable ∨ ¬v.IsTable) : u.above v = u := by
  funext steps
  cases steps with
  | nil => exact above_nil u v
  | cons step steps =>
    rw [above]
    split
    · next hu hv _ => exact absurd h (by simp [IsTable, hu, hv])
    · next hu hv _ _ => exact absurd h (by simp [IsTable, hu, hv])
    · rfl

/-- Where the upper table leaves a step open the lower one is seen. -/
theorem beyond_above_of_upper (hu : u.IsTable) (hv : v.IsTable) (h : u [step] = none) :
    (u.above v).beyond step = v.beyond step := by
  funext steps
  rw [beyond, above, hu, hv, h]
  rfl

/-- Where the lower table leaves a step open the upper one is seen. -/
theorem beyond_above_of_lower (hu : u [step] ≠ none) (hv : v [step] = none) :
    (u.above v).beyond step = u.beyond step := by
  funext steps
  rw [beyond, above]
  split
  · next hnone => exact absurd hnone hu
  · next hsome =>
    rw [hv] at hsome
    cases hsome
  · rfl

/-- Where both tables have something it is laid over each other. -/
theorem beyond_above (hu : u.IsTable) (hv : v.IsTable) (hustep : u [step] ≠ none)
    (hvstep : v [step] ≠ none) :
    (u.above v).beyond step = (u.beyond step).above (v.beyond step) := by
  obtain ⟨form, hform⟩ := Option.ne_none_iff_exists'.mp hustep
  obtain ⟨form', hform'⟩ := Option.ne_none_iff_exists'.mp hvstep
  funext steps
  rw [beyond, above, hu, hv, hform, hform']

/-- A view laid over itself is as it was. -/
theorem above_self (u : View) : u.above u = u := by
  funext steps
  induction steps generalizing u with
  | nil => exact above_nil u u
  | cons step steps ih =>
    change (u.above u).beyond step steps = u.beyond step steps
    by_cases hu : u.IsTable
    · by_cases hstep : u [step] = none
      · rw [beyond_above_of_upper hu hu hstep]
      · rw [beyond_above hu hu hstep hstep, ih]
    · rw [above_of_not_isTable (.inl hu)]

/-- Laying a view over once more changes nothing. -/
theorem above_above_left (u v : View) : u.above (u.above v) = u.above v := by
  funext steps
  induction steps generalizing u v with
  | nil => rw [above_nil, above_nil]
  | cons step steps ih =>
    change (u.above (u.above v)).beyond step steps = (u.above v).beyond step steps
    by_cases htables : u.IsTable ∧ v.IsTable
    · obtain ⟨hu, hv⟩ := htables
      have huv : (u.above v).IsTable := (above_nil u v).trans hu
      by_cases hustep : u [step] = none
      · rw [beyond_above_of_upper hu huv hustep]
      · by_cases hvstep : v [step] = none
        · have hbeyond := beyond_above_of_lower hustep hvstep
          have hsome : u.above v [step] ≠ none := fun h => hustep ((congrFun hbeyond []).symm.trans h)
          rw [beyond_above hu huv hustep hsome, hbeyond, above_self]
        · have hbeyond := beyond_above hu hv hustep hvstep
          have hsome : u.above v [step] ≠ none := fun h =>
            hustep ((above_nil _ _).symm.trans ((congrFun hbeyond []).symm.trans h))
          rw [beyond_above hu huv hustep hsome, hbeyond, ih]
    · have huv : u.above v = u := above_of_not_isTable (not_and_or.mp htables)
      rw [huv, above_self]

/-- Laying a view under once more changes nothing. -/
theorem above_above_right (u v : View) : (u.above v).above v = u.above v := by
  funext steps
  induction steps generalizing u v with
  | nil => exact above_nil _ v
  | cons step steps ih =>
    change ((u.above v).above v).beyond step steps = (u.above v).beyond step steps
    by_cases htables : u.IsTable ∧ v.IsTable
    · obtain ⟨hu, hv⟩ := htables
      have huv : (u.above v).IsTable := (above_nil u v).trans hu
      by_cases hvstep : v [step] = none
      · by_cases hustep : u [step] = none
        · have hbeyond := beyond_above_of_upper hu hv hustep
          have hnone : u.above v [step] = none := (congrFun hbeyond []).trans hvstep
          rw [beyond_above_of_upper huv hv hnone, hbeyond]
        · have hbeyond := beyond_above_of_lower hustep hvstep
          have hsome : u.above v [step] ≠ none := fun h => hustep ((congrFun hbeyond []).symm.trans h)
          rw [beyond_above_of_lower hsome hvstep]
      · by_cases hustep : u [step] = none
        · have hbeyond := beyond_above_of_upper hu hv hustep
          have hsome : u.above v [step] ≠ none := fun h => hvstep ((congrFun hbeyond []).symm.trans h)
          rw [beyond_above huv hv hsome hvstep, hbeyond, above_self]
        · have hbeyond := beyond_above hu hv hustep hvstep
          have hsome : u.above v [step] ≠ none := fun h =>
            hustep ((above_nil _ _).symm.trans ((congrFun hbeyond []).symm.trans h))
          rw [beyond_above huv hv hsome hvstep, hbeyond, ih]
    · have huv : u.above v = u := above_of_not_isTable (not_and_or.mp htables)
      rw [huv, huv]

/-- What is no table is seen with all that is in it in one of two views that are laid over each
other. -/
theorem above_shows {path : List Step} (h : u.above v path = some form) (hform : form ≠ .table) :
    (∀ steps, u.above v (path ++ steps) = u (path ++ steps)) ∨
      ∀ steps, u.above v (path ++ steps) = v (path ++ steps) := by
  induction path generalizing u v with
  | nil =>
    rw [above_nil] at h
    have hu : ¬u.IsTable := fun hu => hform (Option.some.inj (h.symm.trans hu))
    exact .inl fun steps => congrFun (above_of_not_isTable (.inl hu)) _
  | cons step path ih =>
    by_cases htables : u.IsTable ∧ v.IsTable
    · obtain ⟨hu, hv⟩ := htables
      by_cases hustep : u [step] = none
      · exact .inr fun steps => congrFun (beyond_above_of_upper hu hv hustep) _
      · by_cases hvstep : v [step] = none
        · exact .inl fun steps => congrFun (beyond_above_of_lower hustep hvstep) _
        · have hbeyond := beyond_above hu hv hustep hvstep
          refine (ih ((congrFun hbeyond path).symm.trans h)).imp ?_ ?_
          · exact fun hshows steps => (congrFun hbeyond _).trans (hshows steps)
          · exact fun hshows steps => (congrFun hbeyond _).trans (hshows steps)
    · exact .inl fun steps => congrFun (above_of_not_isTable (not_and_or.mp htables)) _

end View

/-- The label of a link. -/
def label? : Value → Option Nat
  | link label _ => some label
  | _ => none

/-! ## Labels that are moved up -/

variable {v : Value}

private theorem table?_relabel (offset : Nat) (v : Value) :
    (v.relabel offset).table? = v.table?.map (Table.mapValues (relabel offset)) := by
  cases v with
  | table t =>
    change some (mapLinksEntries _ t) = _
    rw [Labels.mapLinksEntries_eq]
    rfl
  | _ => rfl

private theorem places_relabel (offset : Nat) (v : Value) :
    (v.relabel offset).places = v.places.map (relabel offset) := by
  cases v with
  | list items => exact Labels.mapLinksItems_eq _ items
  | _ => rfl

private theorem form_relabel (offset : Nat) (h : ∀ label kind, v ≠ .link label kind) :
    (v.relabel offset).form = v.form := by
  cases v with
  | link label kind => exact absurd rfl (h label kind)
  | list items =>
    change Form.list (mapLinksItems _ items).length = _
    rw [Labels.mapLinksItems_eq, List.length_map]
    rfl
  | _ => rfl

end Value

namespace Links

open Value

variable {l l' source : Links} {v w x old new : Value} {step : Step} {steps path : List Step}
  {label place : Nat} {t : Table Value} {k : Scalar}

/-! ## What is seen of a value -/

/-- The view of a value. -/
def view (l : Links) (v : Value) : View := fun steps =>
  (l.at? v steps).map fun x => (l.held x).form

/-- Values look alike if they have one view. -/
theorem alike_iff : l.Alike v l' w ↔ l.view v = l'.view w := funext_iff.symm

/-- At its root a view shows what kind of value is held. -/
@[simp] theorem view_nil (l : Links) (v : Value) : l.view v [] = some (l.held v).form := rfl

private theorem view_step (l : Links) (v : Value) (step : Step) :
    l.view v [step] = (l.child? v step).map fun x => (l.held x).form := by
  rw [view, at?_cons]
  cases l.child? v step <;> rfl

/-- A view shows nothing where a value has no part. -/
theorem view_step_eq_none_iff : l.view v [step] = none ↔ l.child? v step = none := by
  rw [view_step, Option.map_eq_none_iff]

private theorem beyond_view (h : l.child? v step = some w) : (l.view v).beyond step = l.view w := by
  funext steps
  rw [View.beyond, view, at?_cons, h]
  rfl

/-- Where a value has no part there is nothing beyond. -/
theorem beyond_view_of_none (h : l.child? v step = none) :
    (l.view v).beyond step = fun _ => none := by
  funext steps
  rw [View.beyond, view, at?_cons, h]
  rfl

private theorem at?_append (l : Links) (v : Value) (path steps : List Step) :
    l.at? v (path ++ steps) = (l.at? v path).bind fun w => l.at? w steps :=
  List.foldlM_append

/-- Behind a path, a view shows what the value there shows. -/
theorem view_append (h : l.at? v path = some w) (steps : List Step) :
    l.view v (path ++ steps) = l.view w steps := by
  rw [view, at?_append, h]
  rfl

/-- A view is a table's where the value is a table. -/
theorem isTable_view_iff : (l.view v).IsTable ↔ ∃ t, l.table? v = some t := by
  rw [View.IsTable, view_nil, table?_eq]
  cases l.held v <;> simp [form, Value.table?]

/-- Values that hold the same have the same parts. -/
theorem child?_congr (h : l'.held w = l.held v) : l'.child? w step = l.child? v step := by
  cases step <;> rw [child?, child?, h]

/-- A table has no part at a place. -/
theorem child?_place_of_table? (h : l.table? v = some t) (n : Nat) : l.child? v (.place n) = none := by
  rw [table?_eq] at h
  rw [child?, table?_eq_some_iff.mp h]
  rfl

/-- The part of a table at a key is what is found there. -/
theorem child?_key_of_table? (h : l.table? v = some t) (k : Scalar) :
    l.child? v (.key k) = Table.find? t k := by
  rw [child?, ← table?_eq, h]
  rfl

/-- Only what a value or its link stands for is seen. -/
theorem view_congr (h : l.held w = l.held v) : l.view w = l.view v := by
  funext steps
  cases steps with
  | nil => rw [view_nil, view_nil, h]
  | cons step steps => rw [view, view, at?_cons, at?_cons, child?_congr h]

/-- What is no table is seen where it is laid over another view. -/
theorem above_view_append (h : l.at? v path = some x) (hx : (l.held x).isTable = false) (u : View)
    (steps : List Step) : (l.view v).above u (path ++ steps) = l.view v (path ++ steps) := by
  induction path generalizing v u with
  | nil =>
    obtain rfl : v = x := Option.some.inj h
    have hno : ¬(l.view v).IsTable := by
      rw [isTable_view_iff, table?_eq, isTable_eq_false_iff.mp hx]
      simp
    rw [View.above_of_not_isTable (.inl hno)]
  | cons step path ih =>
    rw [at?_cons] at h
    obtain ⟨w, hw, h⟩ := Option.bind_eq_some_iff.mp h
    have hvstep : l.view v [step] ≠ none := by
      rw [Ne, view_step_eq_none_iff, hw]
      exact Option.some_ne_none w
    change ((l.view v).above u).beyond step (path ++ steps) = (l.view v).beyond step (path ++ steps)
    by_cases htables : (l.view v).IsTable ∧ u.IsTable
    · by_cases hustep : u [step] = none
      · rw [View.beyond_above_of_lower hvstep hustep]
      · rw [View.beyond_above htables.1 htables.2 hvstep hustep, beyond_view hw, ih h]
    · rw [View.above_of_not_isTable (not_and_or.mp htables)]

/-! ## What a view depends on -/

/-- The label of the link that steps from a value lead to. -/
def labelAt (l : Links) (v : Value) (steps : List Step) : Option Nat := (l.at? v steps).bind label?

/-- The label of a value itself is the one that it has. -/
@[simp] theorem labelAt_nil (l : Links) (v : Value) : l.labelAt v [] = v.label? := rfl

/-- The label below a step is the one below the part there. -/
theorem labelAt_cons (l : Links) (v : Value) (step : Step) (steps : List Step) :
    l.labelAt v (step :: steps) = (l.child? v step).bind fun w => l.labelAt w steps :=
  Option.bind_assoc _ _ _

/-- Steps from a value lead to a link with a label. -/
def Reaches (l : Links) (v : Value) (label : Nat) : Prop := ∃ steps, l.labelAt v steps = some label

private theorem Reaches.of_link (l : Links) (label : Nat) (kind : PartKind) :
    l.Reaches (.link label kind) label := ⟨[], rfl⟩

/-- What a part reaches, the value reaches. -/
theorem Reaches.of_child? (h : l.Reaches w label) (hw : l.child? v step = some w) :
    l.Reaches v label := by
  obtain ⟨steps, hsteps⟩ := h
  refine ⟨step :: steps, ?_⟩
  rw [labelAt_cons, hw]
  exact hsteps

section Labels

variable {P : Nat → Prop} (hl : ∀ label, P label → Labels P (l.content label))

include hl

/-- Where what links stand for has certain labels only, steps lead to values with such labels. -/
theorem labels_child? (hv : Labels P v) (hw : l.child? v step = some w) : Labels P w := by
  have hheld : Labels P (l.held v) := by
    cases v with
    | link label kind =>
      cases hv with
      | link _ hlabel => exact hl label hlabel
    | _ => exact hv
  cases step with
  | key k =>
    obtain ⟨t, ht, hw⟩ := Option.bind_eq_some_iff.mp hw
    rw [table?_eq_some_iff.mp ht] at hheld
    exact hheld.of_find? hw
  | place n => exact hheld.of_places w (List.mem_of_getElem? hw)

private theorem labels_at? (hv : Labels P v) (hx : l.at? v steps = some x) : Labels P x := by
  induction steps generalizing v with
  | nil =>
    obtain rfl : v = x := Option.some.inj hx
    exact hv
  | cons step steps ih =>
    rw [at?_cons] at hx
    obtain ⟨w, hw, hx⟩ := Option.bind_eq_some_iff.mp hx
    exact ih (labels_child? hl hv hw) hx

/-- What holds of the labels of a value and of all links holds of what the value reaches. -/
theorem holds_of_reaches (hv : Labels P v) (h : l.Reaches v label) : P label := by
  obtain ⟨steps, hsteps⟩ := h
  obtain ⟨x, hx, hlabel⟩ := Option.bind_eq_some_iff.mp hsteps
  cases labels_at? hl hv hx with
  | link _ hin =>
    obtain rfl := Option.some.inj hlabel
    exact hin
  | _ => cases hlabel

end Labels

/-- A bounded value reaches labels of the links alone. -/
theorem Closed.lt_of_reaches (hl : l.Closed) (hv : Bounded l.size v) (h : l.Reaches v label) :
    label < l.size :=
  holds_of_reaches (P := (· < l.size)) hl hv h

/-- What the links of a value lead to is the same later. -/
def Unchanged (l : Links) (v : Value) (l' : Links) : Prop :=
  ∀ label, l.Reaches v label → l'.content label = l.content label

/-- A value is unchanged where every link holds what it held. -/
theorem unchanged_of_contents (hl : l.Closed) (hv : Bounded l.size v)
    (h : ∀ label < l.size, l'.content label = l.content label) : Unchanged l v l' :=
  fun label hr => h label (hl.lt_of_reaches hv hr)

/-- A value without links depends on none. -/
theorem unchanged_of_bounded (l : Links) (hv : Bounded 0 v) : Unchanged #[] v l :=
  fun label hr => absurd (closed_empty.lt_of_reaches hv hr) (Nat.not_lt_zero label)

namespace Unchanged

private theorem of_child? (h : Unchanged l v l') (hw : l.child? v step = some w) :
    Unchanged l w l' :=
  fun label hr => h label (hr.of_child? hw)

private theorem held (h : Unchanged l v l') : l'.held v = l.held v := by
  cases v with
  | link label kind => exact h label (.of_link l label kind)
  | _ => rfl

private theorem at? (h : Unchanged l v l') (steps : List Step) :
    l'.at? v steps = l.at? v steps := by
  induction steps generalizing v with
  | nil => rfl
  | cons step steps ih =>
    rw [at?_cons, at?_cons, child?_congr h.held]
    cases hw : l.child? v step with
    | none => rfl
    | some w => exact ih (h.of_child? hw)

/-- An unchanged value has the labels that it had. -/
theorem labelAt (h : Unchanged l v l') (steps : List Step) :
    l'.labelAt v steps = l.labelAt v steps := by
  rw [Links.labelAt, Links.labelAt, h.at?]

/-- An unchanged value reaches what it reached. -/
theorem reaches_iff (h : Unchanged l v l') : l'.Reaches v label ↔ l.Reaches v label :=
  exists_congr fun steps => by rw [h.labelAt]

/-- An unchanged value looks as it did. -/
theorem view (h : Unchanged l v l') : l'.view v = l.view v := by
  funext steps
  induction steps generalizing v with
  | nil => rw [view_nil, view_nil, h.held]
  | cons step steps ih =>
    rw [Links.view, Links.view, at?_cons, at?_cons, child?_congr h.held]
    cases hw : l.child? v step with
    | none => rfl
    | some w => exact ih (h.of_child? hw)

end Unchanged

/-! ## Copies -/

/-- No link stands for another link. -/
def Direct (l : Links) : Prop := ∀ label inner kind, l.content label ≠ .link inner kind

/-- No links at all are direct. -/
theorem direct_empty : Direct #[] := fun _ _ _ h => nomatch h

private theorem Direct.held (h : l.Direct) (v : Value) (inner : Nat) (kind : PartKind) :
    l.held v ≠ .link inner kind := by
  cases v with
  | link label _ => exact h label inner kind
  | _ => exact fun h => nomatch h

/-- Links among which others stand, with their labels moved up. -/
def Behind (source : Links) (offset : Nat) (l : Links) : Prop :=
  ∀ label < source.size, l.content (label + offset) = (source.content label).relabel offset

namespace Behind

variable {offset : Nat}

private theorem held (h : source.Behind offset l) (hv : Bounded source.size v) :
    l.held (v.relabel offset) = (source.held v).relabel offset := by
  cases hv with
  | link kind hlabel => exact h _ hlabel
  | _ => rfl

private theorem child? (h : source.Behind offset l) (hv : Bounded source.size v) (step : Step) :
    l.child? (v.relabel offset) step = (source.child? v step).map (relabel offset) := by
  cases step with
  | key k =>
    rw [Links.child?, Links.child?, h.held hv, table?_relabel]
    cases (source.held v).table? with
    | none => rfl
    | some t => exact Table.find?_mapValues (relabel offset) t k
  | place n => rw [Links.child?, Links.child?, h.held hv, places_relabel, List.getElem?_map]

private theorem at? (h : source.Behind offset l) (hs : source.Closed) (hv : Bounded source.size v)
    (steps : List Step) :
    l.at? (v.relabel offset) steps = (source.at? v steps).map (relabel offset) := by
  induction steps generalizing v with
  | nil => rfl
  | cons step steps ih =>
    rw [at?_cons, at?_cons, h.child? hv]
    cases hw : source.child? v step with
    | none => rfl
    | some w => exact ih (labels_child? hs hv hw)

/-- A value whose labels have been moved up looks as before. -/
theorem view (h : source.Behind offset l) (hs : source.Closed) (hd : source.Direct)
    (hv : Bounded source.size v) : l.view (v.relabel offset) = source.view v := by
  funext steps
  rw [Links.view, Links.view, h.at? hs hv]
  cases hx : source.at? v steps with
  | none => rfl
  | some x =>
    rw [Option.map_some, Option.map_some, Option.map_some, h.held (labels_at? hs hv hx),
      form_relabel offset (hd.held x)]

private theorem le_of_reaches (h : source.Behind offset l) (hs : source.Closed)
    (hv : Bounded source.size v)
    (hr : l.Reaches (v.relabel offset) label) : offset ≤ label := by
  obtain ⟨steps, hsteps⟩ := hr
  rw [labelAt, h.at? hs hv] at hsteps
  obtain ⟨y, hy, hlabel⟩ := Option.bind_eq_some_iff.mp hsteps
  obtain ⟨x, -, rfl⟩ := Option.map_eq_some_iff.mp hy
  cases x with
  | link inner _ =>
    obtain rfl := Option.some.inj hlabel
    exact Nat.le_add_left offset inner
  | _ => cases hlabel

end Behind

private theorem behind_append (l source : Links) :
    source.Behind l.size (l ++ source.map (relabel l.size)) := by
  intro label hlabel
  rw [content_append, if_neg (by omega), Nat.add_sub_cancel]
  simp [content, hlabel]

/-- A copy of a value looks like the value. -/
theorem view_adopt (l : Links) (hs : source.Closed) (hd : source.Direct)
    (hv : Bounded source.size v) :
    (l.adopt source v).1.view (l.adopt source v).2 = source.view v := by
  rw [adopt]
  split
  · next hempty =>
    have hzero : source.size = 0 := by simpa using hempty
    exact alike_iff.mp (alike_of_bounded l source (hv.mono (Nat.le_of_eq hzero)))
  · exact (behind_append l source).view hs hd hv

/-- The links of a copy are new ones. -/
theorem le_of_reaches_adopt (hs : source.Closed) (hv : Bounded source.size v)
    (h : (l.adopt source v).1.Reaches (l.adopt source v).2 label) : l.size ≤ label := by
  rw [adopt] at h
  split at h
  · next hempty =>
    have hzero : source.size = 0 := by simpa using hempty
    have hplain := unchanged_of_bounded l (hv.mono (Nat.le_of_eq hzero))
    have hlabel := closed_empty.lt_of_reaches (hv.mono (Nat.le_of_eq hzero)) (hplain.reaches_iff.mp h)
    exact absurd hlabel (Nat.not_lt_zero label)
  · exact (behind_append l source).le_of_reaches hs hv h

/-! ## Writes that show nothing -/

/-- Everything looks as before when a value under a key is replaced by one that looks alike. -/
theorem view_put_alike (ht : l.content place = .table t) (hold : Table.find? t k = some old)
    (hnew : l.view new = l.view old) (x : Value) :
    view (l.setIfInBounds place (.table (Table.put t k new))) x = l.view x := by
  have hplace : place < l.size := by
    by_contra hge
    rw [content_of_ge (Nat.le_of_not_lt hge)] at ht
    cases ht
  obtain ⟨l', hl'⟩ : ∃ l' : Links, l' = l.setIfInBounds place (.table (Table.put t k new)) :=
    ⟨_, rfl⟩
  rw [← hl']
  have hcontent (label : Nat) : l'.content label =
      if place = label then .table (Table.put t k new) else l.content label := by
    rw [hl', content_setIfInBounds]
    simp only [hplace, and_true]
  have hheld (y : Value) : l'.held y = l.held y ∨
      (l.held y = .table t ∧ l'.held y = .table (Table.put t k new)) := by
    cases y with
    | link label kind =>
      by_cases hlabel : place = label
      · exact .inr ⟨hlabel ▸ ht, (hcontent label).trans (if_pos hlabel)⟩
      · exact .inl ((hcontent label).trans (if_neg hlabel))
    | _ => exact .inl rfl
  have hchild (y : Value) (step : Step) : (l.child? y step = none ∧ l'.child? y step = none) ∨
      ∃ c c', l.child? y step = some c ∧ l'.child? y step = some c' ∧ l.view c' = l.view c := by
    rcases hheld y with heq | ⟨heq, heq'⟩
    · cases hc : l.child? y step with
      | none => exact .inl ⟨rfl, (child?_congr heq).trans hc⟩
      | some c => exact .inr ⟨c, c, rfl, (child?_congr heq).trans hc, rfl⟩
    · cases step with
      | place n =>
        rw [child?, child?, heq, heq']
        exact .inl ⟨rfl, rfl⟩
      | key k' =>
        have hc : l.child? y (.key k') = Table.find? t k' := by
          rw [child?, heq]
          rfl
        have hc' : l'.child? y (.key k') = if k.same k' then some new else Table.find? t k' := by
          rw [child?, heq', ← Table.find?_put]
          rfl
        by_cases hsame : k.same k' = true
        · rw [if_pos hsame] at hc'
          rw [← Table.find?_congr hsame, hold] at hc
          exact .inr ⟨old, new, hc, hc', hnew⟩
        · rw [if_neg hsame, ← hc] at hc'
          cases hfound : l.child? y (.key k') with
          | none => exact .inl ⟨rfl, hc'.trans hfound⟩
          | some c => exact .inr ⟨c, c, rfl, hc'.trans hfound, rfl⟩
  -- whatever looks alike before the write looks alike after it, by induction on how far one looks
  have halike (steps : List Step) : ∀ y y', l.view y = l.view y' →
      l'.view y' steps = l.view y steps := by
    induction steps with
    | nil =>
      intro y y' hview
      have hform := congrFun hview []
      rw [view_nil, view_nil] at hform
      rw [view_nil, view_nil, hform]
      rcases hheld y' with heq | ⟨heq, heq'⟩
      · rw [heq]
      · rw [heq, heq']
        rfl
    | cons step steps ih =>
      intro y y' hview
      rcases hchild y' step with ⟨hnone, hnone'⟩ | ⟨c, c', hc, hc', hsame⟩
      · have hstep : l.child? y step = none := by
          rw [← view_step_eq_none_iff, hview, view_step_eq_none_iff]
          exact hnone
        rw [view, view, at?_cons, at?_cons, hstep, hnone']
        rfl
      · cases hb : l.child? y step with
        | none =>
          rw [← view_step_eq_none_iff, hview, view_step_eq_none_iff, hc] at hb
          cases hb
        | some b =>
          have hbeyond : l.view b = l.view c' := by
            rw [← beyond_view hb, hview, beyond_view hc, hsame]
          have hnext := ih b c' hbeyond
          rw [← beyond_view hb, ← beyond_view hc'] at hnext
          exact hnext
  exact funext fun steps => halike steps x x rfl

end Links
end BindGen

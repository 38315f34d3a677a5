import BindGen.Proofs.Settings.Loaded
import BindGen.Proofs.Value.Sole

/-!
# What merging one entry shows

Two views are merged by laying one over the other: the view of the target is the upper one where it
keeps what it has, and the lower one where it is replaced. A table shows the merge of two tables if
it shows under each key the merge of what they show there.

One entry of a source is merged by putting a copy in, by keeping what there is, or by merging into a
table that stands under the key. Where there is only one way to each table that is written to, the
entry shows as it should, and what stands under other keys is left alone.
-/

namespace BindGen.Settings

open Value Links

variable {l l' l₁ source : Links} {t t' t₁ u entries rest : Table Value} {v old : Value}
  {k key : Scalar} {e : Scalar × Value} {place inner depth : Nat} {clash : Clash}

/-! ## What merging shows -/

namespace Clash

variable {w u₁ : View} {step : Step}

/-- What is seen of a value after one of the source has been merged into it. -/
def merged : Clash → View → View → View
  | .keep, u, w => u.above w
  | .replace, u, w => w.above u

/-- What is seen under a key after a merge. -/
def laid (clash : Clash) : Option View → Option View → Option View
  | some u, some w => some (clash.merged u w)
  | u, w => u.or w

/-- A layer over nothing is that layer. -/
@[simp] theorem laid_none_left (clash : Clash) (w : Option View) : clash.laid none w = w := by
  cases w <;> rfl

/-- Nothing over a layer is that layer. -/
@[simp] theorem laid_none_right (clash : Clash) (u : Option View) : clash.laid u none = u := by
  cases u <;> rfl

private theorem isTable_merged (clash : Clash) {u w : View} (hu : u.IsTable) (hw : w.IsTable) :
    (clash.merged u w).IsTable := by
  cases clash with
  | keep => exact (View.above_nil u w).trans hu
  | replace => exact (View.above_nil w u).trans hw

/-- What only the source has is seen as it is there. -/
theorem beyond_merged_source (clash : Clash) {u w : View} (hu : u.IsTable) (hw : w.IsTable)
    (hustep : u [step] = none) (hwstep : w [step] ≠ none) :
    (clash.merged u w).beyond step = w.beyond step := by
  cases clash with
  | keep => exact View.beyond_above_of_upper hu hw hustep
  | replace => exact View.beyond_above_of_lower hwstep hustep

/-- What only the target has is seen as it is there. -/
theorem beyond_merged_target (clash : Clash) {u w : View} (hu : u.IsTable) (hw : w.IsTable)
    (hustep : u [step] ≠ none) (hwstep : w [step] = none) :
    (clash.merged u w).beyond step = u.beyond step := by
  cases clash with
  | keep => exact View.beyond_above_of_lower hustep hwstep
  | replace => exact View.beyond_above_of_upper hw hu hwstep

/-- What both have is merged. -/
theorem beyond_merged_both (clash : Clash) {u w : View} (hu : u.IsTable) (hw : w.IsTable)
    (hustep : u [step] ≠ none) (hwstep : w [step] ≠ none) :
    (clash.merged u w).beyond step = clash.merged (u.beyond step) (w.beyond step) := by
  cases clash with
  | keep => exact View.beyond_above hu hw hustep hwstep
  | replace => exact View.beyond_above hw hu hwstep hustep

/-- What neither has is not seen. -/
theorem beyond_merged_neither (clash : Clash) {u w : View} (hu : u.IsTable) (hw : w.IsTable)
    (hustep : u [step] = none) (hwstep : w [step] = none) (h : u.beyond step = w.beyond step) :
    (clash.merged u w).beyond step = u.beyond step := by
  cases clash with
  | keep => exact (View.beyond_above_of_upper hu hw hustep).trans h.symm
  | replace => exact View.beyond_above_of_upper hw hu hwstep

end Clash

/-- Beyond a key of a table lies what the table has under it. -/
theorem beyond_key (ht : l.table? v = some t) (key : Scalar) :
    (l.view v).beyond (.key key) = (l.under t key).getD fun _ => none := by
  funext steps
  rw [View.beyond, view_key ht]
  cases l.under t key <;> rfl

/-- A table has no part under a key where it has no entry. -/
theorem view_key_eq_none_iff (ht : l.table? v = some t) (key : Scalar) :
    l.view v [.key key] = none ↔ l.under t key = none := by
  rw [view_step_eq_none_iff, child?_key_of_table? ht, under, Option.map_eq_none_iff]

/-- Under a key one sees what the merge of the values under it shows. -/
theorem beyond_merged (clash : Clash) {w : Value} (ht : l.table? v = some t)
    (hw : source.table? w = some entries) (key : Scalar) :
    (clash.merged (l.view v) (source.view w)).beyond (.key key) =
      (clash.laid (l.under t key) (source.under entries key)).getD fun _ => none := by
  have hv := isTable_view ht
  have hw' := isTable_view hw
  have hvkey := beyond_key ht key
  have hwkey := beyond_key hw key
  have hvstep := view_key_eq_none_iff ht key
  have hwstep := view_key_eq_none_iff hw key
  cases hu : l.under t key with
  | none =>
    rw [hu] at hvkey
    have hnone := hvstep.mpr hu
    cases hs : source.under entries key with
    | none =>
      rw [hs] at hwkey
      exact (clash.beyond_merged_neither hv hw' hnone (hwstep.mpr hs) (hvkey.trans hwkey.symm)).trans
        hvkey
    | some w₁ =>
      rw [hs] at hwkey
      have hsome : source.view w [.key key] ≠ none := by simp [hwstep, hs]
      exact (clash.beyond_merged_source hv hw' hnone hsome).trans hwkey
  | some u₁ =>
    rw [hu] at hvkey
    have hsome : l.view v [.key key] ≠ none := by simp [hvstep, hu]
    cases hs : source.under entries key with
    | none => exact (clash.beyond_merged_target hv hw' hsome (hwstep.mpr hs)).trans hvkey
    | some w₁ =>
      rw [hs] at hwkey
      have hsome' : source.view w [.key key] ≠ none := by simp [hwstep, hs]
      rw [clash.beyond_merged_both hv hw' hsome hsome', hvkey, hwkey]
      rfl

/-- A table that shows the merge under each key shows the merge of the tables. -/
theorem view_of_laid (hlaid : ∀ key, l'.under t' key =
    clash.laid (l.under t key) (source.under entries key)) :
    l'.view (.table t') = clash.merged (l.view (.table t)) (source.view (.table entries)) := by
  have ht := l.table?_table t
  have he := source.table?_table entries
  have hu := isTable_view ht
  have hw := isTable_view he
  refine View.eq_of_beyond (clash.isTable_merged hu hw).symm fun step => ?_
  cases step with
  | key key => rw [beyond_merged clash ht he, beyond_key (l'.table?_table t'), hlaid]
  | place n =>
    have hplace (l : Links) (t : Table Value) : (l.view (.table t)).beyond (.place n) = fun _ => none :=
      beyond_view_of_none (child?_place_of_table? (l.table?_table t) n)
    have hnone (l : Links) (t : Table Value) : l.view (.table t) [.place n] = none :=
      congrFun (hplace l t) []
    rw [clash.beyond_merged_neither hu hw (hnone l t) (hnone source entries)
      ((hplace l t).trans (hplace source entries).symm), hplace, hplace]

/-! ## Where a table is merged into -/

/-- A link to a table looks like the table. -/
theorem view_table (ht : l.table? v = some t) : l.view v = l.view (.table t) := by
  refine view_congr ?_
  rw [table?_eq, table?_eq_some_iff] at ht
  exact ht

/-- A table under a label to which there is no other way, and none to those in it that are written
to. -/
structure Mergeable (l : Links) (place : Nat) (t : Table Value) (w : View) : Prop where
  closed : l.Closed
  content : l.content place = .table t
  sole : Sole l (.link place .table) w

namespace Mergeable

variable {w : View}

/-- A place to merge into is a link to a table. -/
theorem table? (h : Mergeable l place t w) : l.table? (.link place .table) = some t :=
  table?_link h.content .table

/-- A place to merge into is one of the links. -/
theorem lt (h : Mergeable l place t w) : place < l.size := by
  by_contra hge
  have hnull := content_of_ge (Nat.le_of_not_lt hge)
  rw [h.content] at hnull
  cases hnull

private theorem bounded (h : Mergeable l place t w) : Bounded l.size (.table t) :=
  h.closed.table? (.link .table h.lt) h.table?

/-- The table itself is written to. -/
theorem written (h : Mergeable l place t w) (hw : w.IsTable) :
    Written l (.link place .table) w place :=
  ⟨[], ⟨isTable_view h.table?, hw⟩, rfl⟩

/-- What stands under a key is ready to have the value of the source merged into it. -/
theorem sole_child (h : Mergeable l place t (source.view (.table [(k, v)])))
    (hold : Table.find? t k = some old) : Sole l old (source.view v) := by
  intro path label hmeets hlabel steps hsteps
  have hsource (steps : List Step) :
      source.view (.table [(k, v)]) (.key k :: steps) = source.view v steps := by
    rw [view_key (source.table?_table _), under_cons, if_pos (Scalar.same_refl k)]
    rfl
  have htarget (steps : List Step) :
      l.view (.link place .table) (.key k :: steps) = l.view old steps := by
    rw [view_key h.table?, under, hold]
    rfl
  have hlead (steps : List Step) :
      l.labelAt (.link place .table) (.key k :: steps) = l.labelAt old steps := by
    rw [labelAt_key h.table?, hold]
    rfl
  have halong := h.sole (k :: path) label ⟨(htarget _).trans hmeets.1, (hsource _).trans hmeets.2⟩
    ((hlead _).trans hlabel) (.key k :: steps) ((hlead _).trans hsteps)
  cases halong with
  | cons _ hrest => exact hrest

end Mergeable

/-! ## One entry -/

/-- Entries of a source have been merged into the table under a label. Nothing is written to but
what is reached on one path only, and what was there before is reached from where it was. -/
structure Merged (clash : Clash) (source : Links) (place : Nat) (entries t : Table Value)
    (l l' : Links) (t' : Table Value) : Prop where
  closed : l'.Closed
  size : l.size ≤ l'.size
  content : l'.content place = .table t'
  frame : ∀ label < l.size, ¬Written l (.link place .table) (source.view (.table entries)) label →
    l'.content label = l.content label
  others : ∀ key, Table.find? entries key = none → Table.find? t' key = Table.find? t key
  reach : ∀ key c', Table.find? t' key = some c' → ∀ label < l.size, l'.Reaches c' label →
    ∃ c, Table.find? t key = some c ∧ l.Reaches c label
  laid : ∀ key, l'.under t' key = clash.laid (l.under t key) (source.under entries key)

/-- Merging one entry is told by what becomes of the value under its key. -/
theorem Merged.of_entry {c' : Value} (h : Mergeable l place t (source.view (.table [(k, v)])))
    (hclosed : l'.Closed) (hsize : l.size ≤ l'.size) (hcontent : l'.content place = .table t')
    (hframe : ∀ label < l.size,
      ¬Written l (.link place .table) (source.view (.table [(k, v)])) label →
        l'.content label = l.content label)
    (hothers : ∀ key, ¬k.same key = true → Table.find? t' key = Table.find? t key)
    (hc' : Table.find? t' k = some c')
    (hreach : ∀ label < l.size, l'.Reaches c' label → ∃ c, Table.find? t k = some c ∧ l.Reaches c label)
    (hlaid : clash.laid (l.under t k) (some (source.view v)) = some (l'.view c')) :
    Merged clash source place [(k, v)] t l l' t' := by
  have hlacks {key : Scalar} (hne : ¬k.same key = true) : Table.find? [(k, v)] key = none := by
    rw [Table.find?, if_neg hne]
    rfl
  have hkept {key : Scalar} {c : Value} (hne : ¬k.same key = true) (hc : Table.find? t key = some c) :
      Unchanged l c l' :=
    h.sole.unchanged h.table? h.closed (.link .table h.lt) hframe (hlacks hne) hc
  refine ⟨hclosed, hsize, hcontent, hframe, fun key hkey => ?_, fun key d hd => ?_, fun key => ?_⟩
  · refine hothers key fun hsame => ?_
    rw [Table.find?, if_pos hsame] at hkey
    cases hkey
  · by_cases hsame : k.same key = true
    · rw [← Table.find?_congr hsame, hc'] at hd
      obtain rfl := Option.some.inj hd
      rw [← Table.find?_congr hsame]
      exact hreach
    · rw [hothers key hsame] at hd
      exact fun label _ hr => ⟨d, hd, (hkept hsame hd).reaches_iff.mp hr⟩
  · rw [under_cons]
    by_cases hsame : k.same key = true
    · rw [if_pos hsame, ← under_congr l t hsame, hlaid, ← under_congr l' t' hsame, under, hc']
      rfl
    · rw [if_neg hsame, under, under, hothers key hsame, show source.under [] key = none from rfl,
        Clash.laid_none_right]
      cases hc : Table.find? t key with
      | none => rfl
      | some c => exact congrArg some (hkept hsame hc).view

/-- A copy of the value of the source is put in. -/
theorem merged_putCopy (hs : source.Regular) (hv : Bounded source.size v)
    (h : Mergeable l place t (source.view (.table [(k, v)])))
    (hlaid : clash.laid (l.under t k) (some (source.view v)) = some (source.view v)) :
    ∃ t', Merged clash source place [(k, v)] t l (putCopy source place t k v l) t' := by
  obtain ⟨hsize, hclosed, hcopy, hkept⟩ := adopt_spec (l := l) hs.closed hv
  have hview := view_adopt l hs.closed hs.direct hv
  have hnew : ∀ label, (l.adopt source v).1.Reaches (l.adopt source v).2 label → l.size ≤ label :=
    fun _ => le_of_reaches_adopt hs.closed hv
  rw [putCopy]
  generalize l.adopt source v = adopted at hsize hclosed hcopy hkept hview hnew ⊢
  obtain ⟨l₁, copy⟩ := adopted
  dsimp only at hsize hclosed hcopy hkept hview hnew ⊢
  have hplace : place < l₁.size := Nat.lt_of_lt_of_le h.lt hsize
  have hother : ∀ label, label ≠ place →
      content (l₁.setIfInBounds place (.table (Table.put t k copy))) label = l₁.content label :=
    fun label hne => by rw [content_setIfInBounds, if_neg fun hsame => hne hsame.1.symm]
  -- the copy has new labels only, so it does not lead to the table that it is put into
  have hcopied : Unchanged l₁ copy (l₁.setIfInBounds place (.table (Table.put t k copy))) := by
    refine fun label hr => hother label fun hsame => ?_
    exact Nat.not_lt.mpr (hnew label hr) (hsame ▸ h.lt)
  have hfind : Table.find? (Table.put t k copy) k = some copy := by
    rw [Table.find?_put, if_pos (Scalar.same_refl k)]
  refine ⟨Table.put t k copy, .of_entry h ?_ (by simpa using hsize) ?_ ?_ ?_ hfind ?_ ?_⟩
  · exact (hclosed h.closed).setIfInBounds place ((h.bounded.mono hsize).put k hcopy)
  · rw [content_setIfInBounds, if_pos ⟨rfl, hplace⟩]
  · intro label hlabel hnot
    have hne : label ≠ place := by
      rintro rfl
      exact hnot (h.written (isTable_view (source.table?_table _)))
    rw [hother label hne, hkept label hlabel]
  · exact fun key hne => by rw [Table.find?_put, if_neg hne]
  · intro label hlabel hr
    exact absurd (hnew label (hcopied.reaches_iff.mp hr)) (Nat.not_le.mpr hlabel)
  · rw [hlaid, hcopied.view, hview]

/-- The value of the target is kept. -/
theorem merged_keep (h : Mergeable l place t (source.view (.table [(k, v)])))
    (hold : Table.find? t k = some old)
    (hlaid : clash.laid (l.under t k) (some (source.view v)) = some (l.view old)) :
    Merged clash source place [(k, v)] t l l t :=
  .of_entry h h.closed (Nat.le_refl _) h.content (fun _ _ _ => rfl) (fun _ _ => rfl) hold
    (fun _ _ hr => ⟨old, hold, hr⟩) hlaid

/-! ## Tables in tables -/

/-- A table that stands in the table under a label has been given a label, if it had none. -/
structure Labelled (l : Links) (place : Nat) (t : Table Value) (k : Scalar) (old : Value)
    (l₁ : Links) (inner : Nat) : Prop where
  closed : l₁.Closed
  size : l.size ≤ l₁.size
  outer : ∃ t₁ kind, l₁.content place = .table t₁ ∧ Table.find? t₁ k = some (.link inner kind) ∧
    ∀ key, ¬k.same key = true → Table.find? t₁ key = Table.find? t key
  content : l₁.content inner = l.held old
  others : ∀ label < l.size, label ≠ place → l₁.content label = l.content label
  labelAt : ∀ steps label, label < l.size →
    (l₁.labelAt (.link inner .table) steps = some label ↔ l.labelAt old steps = some label)
  view : l₁.view (.link inner .table) = l.view old
  sole : ∀ {w : View}, Sole l old w → Sole l₁ (.link inner .table) w

/-- A value without a label is given the next one, and its entry becomes a link to it. -/
theorem labelOf_of_unlinked (hlabel : old.label? = none) : labelOf place t k old l =
    ((l.push old).setIfInBounds place (.table (Table.put t k (.link l.size .table))), l.size) := by
  cases old with
  | link inner kind => cases hlabel
  | _ => rfl

/-- A table without a label is given the next one, and stands there as it was. -/
theorem labelled_push (h : Mergeable l place t (source.view (.table [(k, v)])))
    (hold : Table.find? t k = some old) (hlabel : old.label? = none) :
    Labelled l place t k old
      ((l.push old).setIfInBounds place (.table (Table.put t k (.link l.size .table)))) l.size := by
  have hbounded : Bounded l.size old := h.bounded.of_find? hold
  have hclosed : ClosedAfter l (labelOf place t k old l).1 ∧ _ :=
    closed_labelOf h.closed h.bounded hbounded
  rw [labelOf_of_unlinked hlabel] at hclosed
  have hplace : place < (l.push old).size := Nat.lt_trans h.lt (by simp)
  have hother : ∀ label, label ≠ place →
      content ((l.push old).setIfInBounds place (.table (Table.put t k (.link l.size .table)))) label =
        if label = l.size then old else l.content label := by
    intro label hne
    rw [content_setIfInBounds, if_neg fun hsame => hne hsame.1.symm, content_push]
  have hothers : ∀ label < l.size, label ≠ place →
      content ((l.push old).setIfInBounds place (.table (Table.put t k (.link l.size .table)))) label =
        l.content label := by
    intro label hin hne
    rw [hother label hne, if_neg (Nat.ne_of_lt hin)]
  have hboxed : Boxed l old
      ((l.push old).setIfInBounds place (.table (Table.put t k (.link l.size .table)))) l.size := by
    refine ⟨Nat.le_refl _, ?_, hlabel, fun label hr => ?_⟩
    · rw [hother l.size (Nat.ne_of_gt h.lt), if_pos rfl]
    · refine hothers label (h.closed.lt_of_reaches hbounded hr) ?_
      rintro rfl
      exact h.sole.not_reaches_self h.content (isTable_view (source.table?_table _)) hold hr
  refine ⟨hclosed.1.1, hclosed.1.2, ⟨Table.put t k (.link l.size .table), .table, ?_, ?_, ?_⟩,
    hboxed.content.trans (held_of_unlinked l hlabel).symm, hothers,
    fun steps label => hboxed.labelAt_iff steps, hboxed.view, hboxed.sole h.closed hbounded⟩
  · rw [content_setIfInBounds, if_pos ⟨rfl, hplace⟩]
  · rw [Table.find?_put, if_pos (Scalar.same_refl k)]
  · exact fun key hne => by rw [Table.find?_put, if_neg hne]

/-- Giving an entry a label labels it. -/
theorem labelled_labelOf (h : Mergeable l place t (source.view (.table [(k, v)])))
    (hold : Table.find? t k = some old) :
    Labelled l place t k old (labelOf place t k old l).1 (labelOf place t k old l).2 := by
  cases hlabel : old.label? with
  | none =>
    rw [labelOf_of_unlinked hlabel]
    exact labelled_push h hold hlabel
  | some inner =>
    obtain ⟨kind, rfl⟩ := exists_eq_link hlabel
    have hlead := l.labelAt_link inner .table kind
    have hview : l.view (.link inner .table) = l.view (.link inner kind) := view_congr rfl
    change Labelled l place t k (.link inner kind) l inner
    refine ⟨h.closed, Nat.le_refl _, ⟨t, kind, h.content, hold, fun _ _ => rfl⟩, rfl, fun _ _ _ => rfl,
      fun steps label _ => by rw [hlead], hview, fun hsole path label hmeets hpath steps => ?_⟩
    rw [hlead] at hpath ⊢
    rw [hview] at hmeets
    exact hsole path label hmeets hpath steps

/-- The table under the key is ready for the entries of the source. -/
theorem Labelled.mergeable (h : Labelled l place t k old l₁ inner)
    (hready : Mergeable l place t (source.view (.table [(k, v)]))) (hold : Table.find? t k = some old)
    (hu : l.table? old = some u) (hv : source.table? v = some entries) :
    Mergeable l₁ inner u (source.view (.table entries)) := by
  refine ⟨h.closed, ?_, ?_⟩
  · rw [h.content, ← table?_eq_some_iff, ← table?_eq]
    exact hu
  · rw [← view_table hv]
    exact h.sole (hready.sole_child hold)

/-- Merging into a table under a key merges the entry. -/
theorem merged_inner {kept : Table Value} (h : Mergeable l place t (source.view (.table [(k, v)])))
    (hold : Table.find? t k = some old) (hu : l.table? old = some u)
    (hv : source.table? v = some entries) (hlabelled : Labelled l place t k old l₁ inner)
    (hmerged : Merged clash source inner entries u l₁ l' kept) :
    ∃ t', Merged clash source place [(k, v)] t l l' t' := by
  obtain ⟨t', kind, ht', hfind, hothers⟩ := hlabelled.outer
  have htable := isTable_view (source.table?_table [(k, v)])
  have hsource : source.view v = source.view (.table entries) := view_table hv
  have hinner : l₁.table? (.link inner .table) = some u := by
    rw [table?_eq] at hu ⊢
    exact (congrArg Value.table? hlabelled.content).trans hu
  -- what is written to inside is written to on the path through the key
  have hwritten {label : Nat} (hlabel : label < l.size)
      (hw : Written l₁ (.link inner .table) (source.view (.table entries)) label) :
      Written l (.link place .table) (source.view (.table [(k, v)])) label ∧ l.Reaches old label := by
    obtain ⟨path, hmeets, hpath⟩ := hw
    have hpath' := (hlabelled.labelAt _ label hlabel).mp hpath
    rw [hlabelled.view] at hmeets
    refine ⟨⟨k :: path, ⟨?_, ?_⟩, ?_⟩, _, hpath'⟩
    · rw [List.map_cons, view_key h.table?, under, hold]
      exact hmeets.1
    · rw [List.map_cons, view_key (source.table?_table _), under_cons, if_pos (Scalar.same_refl k),
        hsource]
      exact hmeets.2
    · rw [List.map_cons, labelAt_key h.table?, hold]
      exact hpath'
  have hplace : ¬Written l₁ (.link inner .table) (source.view (.table entries)) place := fun hw =>
    h.sole.not_reaches_self h.content htable hold (hwritten h.lt hw).2
  refine ⟨t', .of_entry h hmerged.closed (Nat.le_trans hlabelled.size hmerged.size) ?_ ?_ hothers hfind
    ?_ ?_⟩
  · rw [hmerged.frame place (Nat.lt_of_lt_of_le h.lt hlabelled.size) hplace, ht']
  · intro label hlabel hnot
    have hne : label ≠ place := by
      rintro rfl
      exact hnot (h.written htable)
    rw [hmerged.frame label (Nat.lt_of_lt_of_le hlabel hlabelled.size) fun hw =>
      hnot (hwritten hlabel hw).1, hlabelled.others label hlabel hne]
  · intro label hlabel hr
    refine ⟨old, hold, ?_⟩
    have hin : l₁.Reaches (.link inner .table) label := by
      rcases hr.exists_key (table?_link hmerged.content kind) with hself | ⟨key, c', hc', hr⟩
      · exact ⟨[], hself⟩
      · obtain ⟨c, hc, hr⟩ :=
          hmerged.reach key c' hc' label (Nat.lt_of_lt_of_le hlabel hlabelled.size) hr
        exact hr.of_child? ((child?_key_of_table? hinner key).trans hc)
    obtain ⟨steps, hsteps⟩ := hin
    exact ⟨steps, (hlabelled.labelAt steps label hlabel).mp hsteps⟩
  · have hview : l'.view (.link inner kind) = clash.merged (l.view old) (source.view v) := by
      rw [view_table (table?_link hmerged.content kind), view_of_laid hmerged.laid,
        ← view_table hinner, hlabelled.view, hsource]
    rw [hview, under, hold]
    rfl

end BindGen.Settings

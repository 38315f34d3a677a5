import BindGen.Proofs.Settings.Merged

/-!
# Overlaying one way is filling the other way

A table that is overlaid with a source looks like the source filled from the table. Both show every
value of the source that is no table, and nothing that is in neither; and merging once more changes
nothing.
-/

namespace BindGen.Settings

open Value Links

variable {l l' l₁ source : Links} {t entries rest : Table Value} {v old : Value}
  {k key : Scalar} {e : Scalar × Value} {place depth : Nat} {clash : Clash} {a b r : Linked}

/-! ## Tables without links -/

/-- A merge of plain values that goes under each key shows what the merge of views shows. -/
theorem view_of_find? {meet : Value → Value → Value}
    {merge : Table Value → Table Value → Table Value} (clash : Clash)
    (htables : ∀ t entries, meet (.table t) (.table entries) = .table (merge t entries))
    (hother : ∀ a b, a.isTable = false ∨ b.isTable = false →
      view #[] (meet a b) = clash.merged (view #[] a) (view #[] b))
    (hfind : ∀ t entries key, Table.Distinct entries → Table.find? (merge t entries) key =
      match Table.find? entries key with
      | some v => some (((Table.find? t key).map (meet · v)).getD v)
      | none => Table.find? t key)
    (a : Value) {b : Value} (hb : Keyed b) :
    view #[] (meet a b) = clash.merged (view #[] a) (view #[] b) := by
  induction hb generalizing a with
  | other hb => exact hother a _ (.inr hb)
  | @table entries hd _ ih =>
    cases hisTable : a.isTable with
    | false => exact hother a _ (.inl hisTable)
    | true =>
      obtain ⟨t, rfl⟩ := eq_table_of_isTable hisTable
      rw [htables]
      refine view_of_laid fun key => ?_
      rw [under, hfind t entries key hd, under, under]
      cases hv : Table.find? entries key with
      | none => exact (Clash.laid_none_right clash _).symm
      | some v =>
        obtain ⟨k, hmem, -⟩ := Table.mem_of_find? hv
        cases Table.find? t key with
        | none => rfl
        | some old => exact congrArg some (ih (k, v) hmem old)

private theorem not_isTable_view (h : v.isTable = false) : ¬(view #[] v).IsTable := by
  rw [isTable_view_iff]
  rintro ⟨t, ht⟩
  cases v with
  | table t => cases h
  | link label kind =>
    rw [Links.table?, content_of_ge (Nat.zero_le label)] at ht
    cases ht
  | _ => cases ht

/-- Overlaying lays the view of the source over that of the table. -/
theorem view_overlay (t : Table Value) (he : Keyed (.table entries)) :
    view #[] (.table (overlay t entries)) =
      (view #[] (.table entries)).above (view #[] (.table t)) := by
  rw [← overlaid_table]
  refine view_of_find? .replace overlaid_table (fun a b h => ?_)
    (fun t _ key hd => find?_overlay hd key) (.table t) he
  rw [overlaid_of_not_table h, Clash.merged, View.above_of_not_isTable]
  exact h.symm.imp not_isTable_view not_isTable_view

/-- Filling lays the view of the table over that of the source. -/
theorem view_fill (t : Table Value) (he : Keyed (.table entries)) :
    view #[] (.table (fill t entries)) = (view #[] (.table t)).above (view #[] (.table entries)) := by
  rw [← filled_table]
  refine view_of_find? .keep filled_table (fun a b h => ?_) (fun t _ key hd => find?_fill hd key)
    (.table t) he
  have hkept : filled a b = a := by
    rcases h with ha | hb
    · cases a with
      | table t => cases ha
      | _ => rfl
    · exact filled_of_not_table hb
  rw [hkept, Clash.merged, View.above_of_not_isTable]
  exact h.imp not_isTable_view not_isTable_view

/-! ## One merge -/

/-- Tables meet on a path that is longer than merging goes. Without links it goes to any depth. -/
def TooDeep (a b : Linked) : Prop :=
  (a.1 ≠ #[] ∨ b.1 ≠ #[]) ∧ (viewOf a).Deep mergeDepth (viewOf b)

/-- To a table of one side that meets one of the other side there is no other way. -/
abbrev SoleIn (a b : Linked) : Prop := Sole a.1 (.table a.2) (viewOf b)

private theorem isEmpty_and_iff :
    (a.1.isEmpty && b.1.isEmpty) = true ↔ a.1 = #[] ∧ b.1 = #[] := by simp

/-- Overlaying and filling, without links or with them. -/
theorem settles_merge (clash : Clash) {run : Linked → Linked → Except Fault Linked}
    {merge : Table Value → Table Value → Table Value} {P : Linked → Prop}
    (hrun : run a b = if a.1.isEmpty && b.1.isEmpty then .ok (#[], merge a.2 b.2)
      else mergeLinked clash a b)
    (hplain : a.1 = #[] → b.1 = #[] → P (#[], merge a.2 b.2))
    (hlinked : Settles ((viewOf a).Deep mergeDepth (viewOf b)) P (mergeLinked clash a b)) :
    Settles (TooDeep a b) P (run a b) := by
  rw [hrun]
  split
  · next hempty =>
    obtain ⟨ha, hb⟩ := isEmpty_and_iff.mp hempty
    exact .ok (fun hdeep => hdeep.1.elim (· ha) (· hb)) (hplain ha hb)
  · next hlinks =>
    refine hlinked.congr (and_iff_right ?_).symm
    rw [isEmpty_and_iff] at hlinks
    exact not_and_or.mp hlinks

private theorem settles_overlayLinked (ha : ClosedTable a) (hb : RegularTable b)
    (hsole : SoleIn a b) :
    Settles (TooDeep a b) (fun r => ClosedTable r ∧ viewOf r = (viewOf b).above (viewOf a))
      (overlayLinked a b) := by
  refine settles_merge .replace rfl (fun hempty hempty' => ?_)
    (settles_mergeLinked .replace ha hb hsole)
  obtain ⟨l, t⟩ := a
  obtain ⟨source, entries⟩ := b
  dsimp only at hempty hempty'
  subst hempty hempty'
  exact ⟨⟨closed_empty, bounded_overlay ha.entries hb.bounded⟩, view_overlay t hb.keyed⟩

private theorem settles_fillLinked (ha : ClosedTable a) (hb : RegularTable b) (hsole : SoleIn a b) :
    Settles (TooDeep a b) (fun r => ClosedTable r ∧ viewOf r = (viewOf a).above (viewOf b))
      (fillLinked a b) := by
  refine settles_merge .keep rfl (fun hempty hempty' => ?_) (settles_mergeLinked .keep ha hb hsole)
  obtain ⟨l, t⟩ := a
  obtain ⟨source, entries⟩ := b
  dsimp only at hempty hempty'
  subst hempty hempty'
  exact ⟨⟨closed_empty, (grown_fill closed_empty ha.entries hb.bounded).bounded⟩, view_fill t hb.keyed⟩

/-! ## Merging once more -/

/-- Later links with which all values look as before. -/
structure SameViews (l l' : Links) : Prop where
  closed : l'.Closed
  size : l.size ≤ l'.size
  view : ∀ v, Bounded l.size v → l'.view v = l.view v

namespace SameViews

private theorem refl (hl : l.Closed) : SameViews l l := ⟨hl, Nat.le_refl _, fun _ _ => rfl⟩

private theorem trans (h : SameViews l l₁) (h' : SameViews l₁ l') : SameViews l l' :=
  ⟨h'.closed, Nat.le_trans h.size h'.size, fun v hv =>
    (h'.view v (hv.mono h.size)).trans (h.view v hv)⟩

end SameViews

/-- Each entry of the source shows what is seen under its key anyway. -/
def Shown (clash : Clash) (u : View) (source : Links) (entries : Table Value) : Prop :=
  ∀ e ∈ entries, u [.key e.1] ≠ none ∧
    clash.merged (u.beyond (.key e.1)) (source.view e.2) = u.beyond (.key e.1)

/-- Where the merge shows nothing new none of the entries does. -/
theorem shown_of_merged (hk : Keyed (.table entries)) (ht : l.table? v = some t)
    (h : clash.merged (l.view v) (source.view (.table entries)) = l.view v) :
    Shown clash (l.view v) source entries := by
  rintro ⟨k, w⟩ he
  have hw : source.under entries k = some (source.view w) :=
    congrArg (Option.map source.view) (Table.find?_of_mem hk.distinct he (Scalar.same_refl k))
  have hbeyond := beyond_merged clash ht (source.table?_table entries) k
  rw [h, hw, beyond_key ht] at hbeyond
  rw [Ne, view_key_eq_none_iff ht, beyond_key ht]
  cases hu : l.under t k with
  | none =>
    rw [hu, Clash.laid_none_left] at hbeyond
    cases congrFun hbeyond []
  | some u =>
    rw [hu] at hbeyond
    exact ⟨Option.some_ne_none u, hbeyond.symm⟩

private theorem content_of_table? (ht : l.table? (.link place .table) = some t) :
    l.content place = .table t ∧ place < l.size := by
  have hcontent := table?_eq_some_iff.mp ht
  refine ⟨hcontent, Nat.lt_of_not_le fun hge => ?_⟩
  rw [content_of_ge hge] at hcontent
  cases hcontent

/-- A copy of what looks alike shows nothing new. -/
theorem sameViews_putCopy (hs : source.Regular) (hv : Bounded source.size v) (hl : l.Closed)
    (ht : l.table? (.link place .table) = some t) (hold : Table.find? t k = some old)
    (hview : source.view v = l.view old) : SameViews l (putCopy source place t k v l) := by
  obtain ⟨hcontent, hplace⟩ := content_of_table? ht
  have htable : Bounded l.size (.table t) := hl.table? (.link .table hplace) ht
  obtain ⟨hclosed, hsize⟩ : ClosedAfter l (putCopy source place t k v l) :=
    closed_putCopy hl hs.closed htable hv
  obtain ⟨-, -, -, hkept⟩ := adopt_spec (l := l) hs.closed hv
  have hsame {x : Value} (hx : Bounded l.size x) : (l.adopt source v).1.view x = l.view x :=
    (unchanged_of_contents hl hx hkept).view
  refine ⟨hclosed, hsize, fun x hx => ?_⟩
  rw [putCopy, view_put_alike ((hkept place hplace).trans hcontent) hold, hsame hx]
  rw [view_adopt l hs.closed hs.direct hv, hview, hsame (htable.of_find? hold)]

/-- Giving a label to a table shows nothing new. -/
theorem sameViews_labelOf {u : Table Value} (hl : l.Closed)
    (ht : l.table? (.link place .table) = some t) (hold : Table.find? t k = some old)
    (hu : l.table? old = some u) :
    SameViews l (labelOf place t k old l).1 ∧
      (labelOf place t k old l).1.table? (.link (labelOf place t k old l).2 .table) = some u ∧
      (labelOf place t k old l).1.view (.link (labelOf place t k old l).2 .table) = l.view old := by
  obtain ⟨hcontent, hplace⟩ := content_of_table? ht
  have htable : Bounded l.size (.table t) := hl.table? (.link .table hplace) ht
  cases hlabel : old.label? with
  | some inner =>
    obtain ⟨kind, rfl⟩ := exists_eq_link hlabel
    exact ⟨.refl hl, hu, view_congr rfl⟩
  | none =>
    have hbounded : Bounded l.size old := htable.of_find? hold
    have hclosed : ClosedAfter l (labelOf place t k old l).1 ∧ _ := closed_labelOf hl htable hbounded
    rw [labelOf_of_unlinked hlabel] at hclosed ⊢
    have hpushed {x : Value} (hx : Bounded l.size x) : view (l.push old) x = l.view x := by
      refine (unchanged_of_contents hl hx fun label hin => ?_).view
      rw [content_push, if_neg (Nat.ne_of_lt hin)]
    have hnew : view (l.push old) (.link l.size .table) = view (l.push old) old := by
      refine view_congr ?_
      rw [held_of_unlinked _ hlabel, held, content_push, if_pos rfl]
    have hplace' : content (l.push old) place = .table t := by
      rw [content_push, if_neg (Nat.ne_of_lt hplace), hcontent]
    have hinner :
        content ((l.push old).setIfInBounds place (.table (Table.put t k (.link l.size .table))))
          l.size = old := by
      rw [content_setIfInBounds, if_neg fun hsame => Nat.ne_of_lt hplace hsame.1, content_push,
        if_pos rfl]
    have hview (x : Value) (hx : Bounded l.size x) :
        view ((l.push old).setIfInBounds place (.table (Table.put t k (.link l.size .table)))) x =
          l.view x := by
      rw [view_put_alike hplace' hold hnew, hpushed hx]
    refine ⟨⟨hclosed.1.1, hclosed.1.2, hview⟩, ?_, ?_⟩
    · rw [table?_eq, held_of_unlinked l hlabel] at hu
      rw [table?_eq, held, hinner, hu]
    · rw [← hview old hbounded]
      refine view_congr ?_
      rw [held_of_unlinked _ hlabel, held, hinner]

/-- Merging an entry that shows nothing new shows nothing new, if merging into the tables under it
does. -/
theorem sameViews_mergeEntry (hs : source.Regular)
    (hinner : ∀ {l : Links} {place : Nat} {t entries : Table Value},
      Bounded source.size (.table entries) → Keyed (.table entries) → l.Closed →
      l.table? (.link place .table) = some t →
      Shown clash (l.view (.link place .table)) source entries →
      Settles ((l.view (.link place .table)).Deep depth (source.view (.table entries))) (SameViews l)
        (mergeAt clash source depth place entries l))
    (hv : Bounded source.size v) (hk : Keyed v) (hl : l.Closed)
    (ht : l.table? (.link place .table) = some t) (hold : Table.find? t k = some old)
    (hshown : clash.merged (l.view old) (source.view v) = l.view old) :
    Settles ((l.view (.link place .table)).Deep (depth + 1) (source.view (.table [(k, v)])))
      (SameViews l) (mergeEntry clash source depth place l (k, v)) := by
  have hplace := (content_of_table? ht).2
  have hdeep : (l.view old).Deep depth (source.view v) ↔
      (l.view (.link place .table)).Deep (depth + 1) (source.view (.table [(k, v)])) := by
    rw [deep_single_iff ht, hold]
    simp
  unfold mergeEntry
  rw [ht, Option.getD_some]
  dsimp only
  rw [hold]
  dsimp only
  split
  · next u entries hu hentries =>
    obtain ⟨hlabelled, htable, hview⟩ := sameViews_labelOf hl ht hold hu
    have hkinner := hs.keyed_table? hk hentries
    have hsource : source.view v = source.view (.table entries) := view_table hentries
    rw [hsource] at hshown
    have hshown' := shown_of_merged hkinner hu hshown
    rw [← hview] at hshown'
    have hmerge := hinner (hs.closed.table? hv hentries) hkinner hlabelled.closed htable hshown'
    refine (hmerge.imp ?_).congr ?_
    · exact fun l' hl' => hlabelled.trans hl'
    · rw [hview, ← hsource]
      exact hdeep
  · next hnot =>
    have htables := eq_none_of_not_some hnot
    have hfree := fun hd => not_deep_of_not_tables htables (hdeep.mpr hd)
    rw [merged_of_not_tables clash htables] at hshown
    cases clash with
    | keep => exact .ok hfree (.refl hl)
    | replace => exact .ok hfree (sameViews_putCopy hs hv hl ht hold hshown)

/-- Merging entries that show nothing new shows nothing new, unless it goes too deep. -/
theorem sameViews_mergeAt (hs : source.Regular) (depth : Nat)
    (he : Bounded source.size (.table entries)) (hk : Keyed (.table entries)) (hl : l.Closed)
    (ht : l.table? (.link place .table) = some t)
    (hshown : Shown clash (l.view (.link place .table)) source entries) :
    Settles ((l.view (.link place .table)).Deep depth (source.view (.table entries))) (SameViews l)
      (mergeAt clash source depth place entries l) := by
  induction depth generalizing l place t entries with
  | zero =>
    have hdeep : (l.view (.link place .table)).Deep 0 (source.view (.table entries)) :=
      ⟨[], rfl, meets_nil_iff.mpr (isTable_view ht)⟩
    exact ⟨fun _ => rfl, fun hnot => absurd hdeep hnot⟩
  | succ depth ih =>
    rw [mergeAt_succ]
    induction entries generalizing l t with
    | nil => exact .ok not_deep_nil (.refl hl)
    | cons e rest ihrest =>
      obtain ⟨k, v⟩ := e
      obtain ⟨hfirst, hlater⟩ := List.forall_mem_cons.mp hshown
      obtain ⟨old, hold⟩ : ∃ old, Table.find? t k = some old := by
        rw [Ne, view_key_eq_none_iff ht, under, Option.map_eq_none_iff] at hfirst
        exact Option.ne_none_iff_exists'.mp hfirst.1
      rw [beyond_key ht, under, hold] at hfirst
      have hrest : Bounded source.size (.table rest) :=
        .table fun e hmem => he.of_mem (List.mem_cons_of_mem _ hmem)
      have hentry : Settles _ _ (mergeEntry clash source depth place l (k, v)) :=
        sameViews_mergeEntry hs (fun he hk hl ht hshown => ih he hk hl ht hshown)
          (he.of_mem List.mem_cons_self) (hk.of_mem List.mem_cons_self) hl ht hold hfirst.2
      rw [List.foldlM_cons]
      refine (hentry.bind fun l₁ hl₁ => ?_).congr (deep_cons_iff hk.distinct).symm
      -- the table looks as before, so what the other entries show is seen anyway
      have hview := hl₁.view (.link place .table) (.link .table (content_of_table? ht).2)
      obtain ⟨t₁, ht₁⟩ : ∃ t₁, l₁.table? (.link place .table) = some t₁ := by
        rw [← isTable_view_iff, hview]
        exact isTable_view ht
      rw [← hview] at hlater ⊢
      exact (ihrest hrest hk.tail hl₁.closed ht₁ hlater).imp fun l' hl' => hl₁.trans hl'

/-- Merging what shows nothing new changes nothing that is seen. -/
theorem settles_mergeLinked_again (clash : Clash) (hr : ClosedTable r) (hb : RegularTable b)
    (h : clash.merged (viewOf r) (viewOf b) = viewOf r) :
    Settles ((viewOf r).Deep mergeDepth (viewOf b)) (fun r' => viewOf r' = viewOf r)
      (mergeLinked clash r b) := by
  obtain ⟨l, t⟩ := r
  obtain ⟨source, entries⟩ := b
  have hboxed : Boxed l (.table t) (l.push (.table t)) l.size := boxed_push hr.entries hr.links
  have hbox : Links.table? (l.push (.table t)) (.link l.size .table) = some t :=
    table?_link hboxed.content .table
  have hclosed : Links.Closed (l.push (.table t)) := hr.links.push (hr.entries.mono (Nat.le_succ _))
  have hview : view (l.push (.table t)) (.link l.size .table) = viewOf (l, t) := hboxed.view
  have hshown : Shown clash (view (l.push (.table t)) (.link l.size .table)) source entries :=
    shown_of_merged hb.keyed hbox (hview ▸ h)
  rw [mergeLinked]
  refine ((sameViews_mergeAt hb.links mergeDepth hb.bounded hb.keyed hclosed hbox hshown).map ?_).congr
    ?_
  · intro l' hl'
    have hsame := (hl'.view (.link l.size .table) (.link .table (content_of_table? hbox).2)).trans hview
    obtain ⟨t', ht'⟩ : ∃ t', l'.table? (.link l.size .table) = some t' := by
      rw [← isTable_view_iff, hsame]
      exact isTable_view (l.table?_table t)
    dsimp only
    rw [ht', Option.getD_some, viewOf, ← view_table ht', hsame]
  · rw [hview]
    rfl

private theorem settles_overlayLinked_again (hr : ClosedTable r) (hb : RegularTable b)
    (h : (viewOf b).above (viewOf r) = viewOf r) :
    Settles (TooDeep r b) (fun r' => viewOf r' = viewOf r) (overlayLinked r b) := by
  refine settles_merge .replace rfl (fun hempty hempty' => ?_)
    (settles_mergeLinked_again .replace hr hb h)
  obtain ⟨l, t⟩ := r
  obtain ⟨source, entries⟩ := b
  dsimp only at hempty hempty'
  subst hempty hempty'
  exact (view_overlay t hb.keyed).trans h

private theorem settles_fillLinked_again (hr : ClosedTable r) (hb : RegularTable b)
    (h : (viewOf r).above (viewOf b) = viewOf r) :
    Settles (TooDeep r b) (fun r' => viewOf r' = viewOf r) (fillLinked r b) := by
  refine settles_merge .keep rfl (fun hempty hempty' => ?_) (settles_mergeLinked_again .keep hr hb h)
  obtain ⟨l, t⟩ := r
  obtain ⟨source, entries⟩ := b
  dsimp only at hempty hempty'
  subst hempty hempty'
  exact (view_fill t hb.keyed).trans h

/-! ## Tables from files -/

private theorem regular_empty : Links.Regular #[] := by
  have hnull (label : Nat) : content #[] label = .null := content_of_ge (Nat.zero_le label)
  refine ⟨closed_empty, direct_empty, fun label => ?_⟩
  rw [hnull]
  exact .other rfl

private theorem proper_valueIn (file : Path) (text : List Char) :
    Yields (fun r => r.2.Regular ∧ Bounded r.2.size r.1 ∧ Keyed r.1) (valueIn file text) := by
  intro r hr
  obtain ⟨hclosed, hbounded⟩ := closed_valueIn file text r hr
  rw [valueIn] at hr
  split at hr
  · obtain ⟨t, ht, rfl⟩ := exists_of_map_eq_ok hr
    exact ⟨regular_empty, hbounded, (Toml.plain_read text t ht).keyed⟩
  · obtain ⟨hproper, hkeyed⟩ := Yaml.proper_read text r hr
    exact ⟨⟨hclosed, fun label => (hproper label).unlinked, fun label => (hproper label).keyed⟩,
      hbounded, hkeyed⟩

/-- A table that a file holds can be read as it is. -/
theorem regularTable_tableIn (file : Path) (text : List Char) :
    Yields RegularTable (tableIn file text) := by
  have hempty : RegularTable (#[], []) := ⟨regular_empty, .empty, .empty⟩
  rw [tableIn]
  split
  · exact .ok hempty
  · split
    · exact .ok hempty
    · next v links _ hv =>
      obtain ⟨hregular, hbounded, hkeyed⟩ := proper_valueIn file text _ hv
      split
      · next entries hentries =>
        exact .ok ⟨hregular, hregular.closed.table? hbounded hentries,
          hregular.keyed_table? hkeyed hentries⟩
      · exact .error _
    · exact .error _
    · exact .error _

/-- In tables without links every table is in one place. -/
theorem soleIn_of_plain (h : Bounded 0 (.table a.2)) (b : Linked) : SoleIn a b := by
  intro path label hmeets hlabel
  have hplain := unchanged_of_bounded a.1 h
  rw [hplain.labelAt] at hlabel
  exact absurd (closed_empty.lt_of_reaches h ⟨_, hlabel⟩) (Nat.not_lt_zero label)

/-! ## Both ways -/

/-- Nothing that can be seen tells two tables apart. The order of keys cannot be seen. -/
def AlikeTables (a b : Linked) : Prop := a.1.Alike (.table a.2) b.1 (.table b.2)

/-- Steps into a table lead to what looks like a value with other links. -/
def LeadsTo (data : Linked) (steps : List Step) (l : Links) (x : Value) : Prop :=
  ∃ y, data.1.at? (.table data.2) steps = some y ∧ data.1.Alike y l x

/-- Every value of a table that is no table itself stands in the result where it stood. -/
def Shows (r b : Linked) : Prop :=
  ∀ steps x, b.1.at? (.table b.2) steps = some x → (b.1.held x).isTable = false →
    LeadsTo r steps b.1 x

/-- Every value of the result that is no table stands in one of two tables where it stands. -/
def ComesFrom (r a b : Linked) : Prop :=
  ∀ steps x, r.1.at? (.table r.2) steps = some x → (r.1.held x).isTable = false →
    LeadsTo a steps r.1 x ∨ LeadsTo b steps r.1 x

private theorem alikeTables_iff : AlikeTables a b ↔ viewOf a = viewOf b := alike_iff

private theorem leadsTo_of_view {path : List Step} {x : Value}
    (h : ∀ steps, viewOf a (path ++ steps) = l.view x steps) : LeadsTo a path l x := by
  have hhere := h []
  rw [List.append_nil, view_nil, viewOf, view] at hhere
  obtain ⟨y, hy, -⟩ := Option.map_eq_some_iff.mp hhere
  refine ⟨y, hy, alike_iff.mpr (funext fun steps => ?_)⟩
  rw [← h steps, viewOf, view_append hy]

private theorem shows_of_view {u : View} (h : viewOf r = (viewOf b).above u) : Shows r b := by
  intro steps x hx hno
  refine leadsTo_of_view fun deeper => ?_
  rw [h, viewOf, above_view_append hx hno, view_append hx]

private theorem comesFrom_of_view (h : viewOf r = (viewOf b).above (viewOf a)) :
    ComesFrom r a b := by
  intro steps x hx hno
  have hform : (viewOf b).above (viewOf a) steps = some (r.1.held x).form := by
    rw [← h, viewOf, view, hx]
    rfl
  have hnot : (r.1.held x).form ≠ .table := by
    intro htable
    cases hheld : r.1.held x <;> rw [hheld] at hno htable
    case table t => cases hno
    all_goals cases htable
  have hbeyond (deeper : List Step) :
      (viewOf b).above (viewOf a) (steps ++ deeper) = r.1.view x deeper := by
    rw [← h, viewOf, view_append hx]
  refine (View.above_shows hform hnot).symm.imp (fun hshows => ?_) fun hshows => ?_
  · exact leadsTo_of_view fun deeper => (hshows deeper).symm.trans (hbeyond deeper)
  · exact leadsTo_of_view fun deeper => (hshows deeper).symm.trans (hbeyond deeper)

private theorem tooDeep_comm : TooDeep a b ↔ TooDeep b a :=
  and_congr or_comm (exists_congr fun _ => and_congr_right fun _ => and_comm)

/-- Overlaying `a` with `b` comes to what filling `b` from `a` comes to: both go too deep, or both
give tables that look alike. Each value of `b` that is no table stands in them where it stood, each
value in them that is no table stands in `a` or in `b`, and merging once more with the same source
changes nothing. No table that is merged into may stand in a place where it is not: then the change
shows there. -/
theorem overlayLinked_alike_fillLinked (ha : RegularTable a) (hb : RegularTable b)
    (hab : SoleIn a b) (hba : SoleIn b a) :
    (TooDeep a b → overlayLinked a b = .error .endless ∧ fillLinked b a = .error .endless) ∧
    (¬TooDeep a b → ∃ r r', overlayLinked a b = .ok r ∧ fillLinked b a = .ok r' ∧
      AlikeTables r r' ∧
      (Shows r b ∧ Shows r' b) ∧
      (ComesFrom r a b ∧ ComesFrom r' a b) ∧
      Settles (TooDeep r b) (AlikeTables · r) (overlayLinked r b) ∧
      Settles (TooDeep r' a) (AlikeTables · r') (fillLinked r' a)) := by
  have hover := settles_overlayLinked ha.closed hb hab
  have hunder := (settles_fillLinked hb.closed ha hba).congr tooDeep_comm
  refine ⟨fun hdeep => ⟨hover.1 hdeep, hunder.1 hdeep⟩, fun hdeep => ?_⟩
  obtain ⟨r, hrun, hclosed, hview⟩ := hover.2 hdeep
  obtain ⟨r', hrun', hclosed', hview'⟩ := hunder.2 hdeep
  have hover_again : (viewOf b).above (viewOf r) = viewOf r := by
    rw [hview, View.above_above_left]
  have hunder_again : (viewOf r').above (viewOf a) = viewOf r' := by
    rw [hview', View.above_above_right]
  refine ⟨r, r', hrun, hrun', alikeTables_iff.mpr (hview.trans hview'.symm),
    ⟨shows_of_view hview, shows_of_view hview'⟩, ⟨comesFrom_of_view hview, comesFrom_of_view hview'⟩,
    ?_, ?_⟩
  · exact (settles_overlayLinked_again hclosed hb hover_again).imp fun _ => alikeTables_iff.mpr
  · exact (settles_fillLinked_again hclosed' ha hunder_again).imp fun _ => alikeTables_iff.mpr

-- Settings in which one table stands in two places, and another one in a single place.
private def ownStyles : Linked :=
  (#[.table [("width", .int 80)], .table [("indent", .int 2)]],
    [("base", .link 0 .table), ("profiles", .list [.link 0 .table]), ("style", .link 1 .table)])

-- Settings for the table that stands in a single place.
private def otherStyle : Linked :=
  (#[], [("style", .table [("indent", .int 4), ("tabs", .bool true)])])

private theorem regularTable_otherStyle : RegularTable otherStyle := by
  refine ⟨regular_empty, ?_, ?_⟩
  · have hstyle : Bounded 0 (.table [("indent", .int 4), ("tabs", .bool true)]) :=
      (Labels.empty.put "indent" (.scalar _)).put "tabs" (.scalar _)
    exact .single "style" hstyle
  · have hstyle : Keyed (.table [("indent", .int 4), ("tabs", .bool true)]) :=
      (Keyed.empty.put "indent" (.other rfl)).put "tabs" (.other rfl)
    exact Keyed.empty.put "style" hstyle

private theorem content_ownStyles (label : Nat) :
    (label = 0 ∧ ownStyles.1.content label = .table [("width", .int 80)]) ∨
      (label = 1 ∧ ownStyles.1.content label = .table [("indent", .int 2)]) ∨
      ownStyles.1.content label = .null := by
  rcases label with _ | _ | label
  · exact .inl ⟨rfl, rfl⟩
  · exact .inr (.inl ⟨rfl, rfl⟩)
  · exact .inr (.inr (content_of_ge (Nat.le_add_left 2 label)))

private theorem regularTable_ownStyles : RegularTable ownStyles := by
  have hkeyed (k : Scalar) (n : Int) : Keyed (.table [(k, .int n)]) := Keyed.empty.put k (.other rfl)
  refine ⟨⟨fun label _ => ?_, fun label inner kind => ?_, fun label => ?_⟩, ?_, ?_⟩
  · rcases content_ownStyles label with ⟨-, h⟩ | ⟨-, h⟩ | h <;> rw [h]
    · exact .single "width" (.scalar _)
    · exact .single "indent" (.scalar _)
    · exact .scalar _
  · rcases content_ownStyles label with ⟨-, h⟩ | ⟨-, h⟩ | h <;> rw [h] <;> exact nofun
  · rcases content_ownStyles label with ⟨-, h⟩ | ⟨-, h⟩ | h <;> rw [h]
    · exact hkeyed "width" 80
    · exact hkeyed "indent" 2
    · exact .other rfl
  · have hbase : Bounded 2 (.link 0 .table) := .link .table (by decide)
    have hprofiles : Bounded 2 (.list [.link 0 .table]) := .list (List.forall_mem_singleton.mpr hbase)
    have hstyle : Bounded 2 (.link 1 .table) := .link .table (by decide)
    exact ((Labels.empty.put "base" hbase).put "profiles" hprofiles).put "style" hstyle
  · exact ((Keyed.empty.put "base" (.other rfl)).put "profiles" (.other rfl)).put "style" (.other rfl)

private theorem soleIn_ownStyles : SoleIn ownStyles otherStyle := by
  have htable := ownStyles.1.table?_table ownStyles.2
  -- nothing in the table under the second label has a label, and the first label leads to itself only
  have hinner (step : Step) (steps : List Step) (label : Nat) :
      ownStyles.1.labelAt (.link 1 .table) (step :: steps) ≠ some label := by
    intro h
    have hr : ownStyles.1.Reaches (.table [("indent", .int 2)]) label := ⟨step :: steps, h⟩
    exact holds_of_reaches (P := fun _ => False) (fun _ h => h.elim) (.single "indent" (.scalar _)) hr
  have hfirst {v : Value} {label : Nat} (hv : Labels (· = 0) v) (hr : ownStyles.1.Reaches v label) :
      label = 0 := by
    refine holds_of_reaches (P := (· = 0)) ?_ hv hr
    rintro _ rfl
    exact .single "width" (.scalar _)
  intro path label hmeets hlabel steps hsteps
  cases path with
  | nil => cases hlabel
  | cons k path =>
    obtain ⟨v, hv, -⟩ := meets_cons_iff.mp hmeets
    obtain ⟨k', hmem, hsame⟩ := Table.mem_of_find? hv
    obtain ⟨rfl, -⟩ := Prod.mk.inj (List.mem_singleton.mp hmem)
    have hfind : Table.find? ownStyles.2 k = some (.link 1 .table) := by
      rw [← Table.find?_congr hsame]
      rfl
    rw [List.map_cons, labelAt_key htable, hfind] at hlabel
    cases path with
    | cons k path => exact absurd hlabel (hinner _ _ _)
    | nil =>
      obtain rfl : 1 = label := Option.some.inj hlabel
      cases steps with
      | nil => cases hsteps
      | cons step steps =>
        cases step with
        | place n =>
          rw [labelAt, at?_place htable] at hsteps
          cases hsteps
        | key key =>
          obtain ⟨c, hc, hsteps⟩ := exists_of_labelAt_key htable hsteps
          obtain ⟨k₁, hmem, hkey⟩ := Table.mem_of_find? hc
          rcases List.mem_cons.mp hmem with heq | hmem
          · obtain ⟨rfl, rfl⟩ := Prod.mk.inj heq
            cases hfirst (.link .table rfl) ⟨_, hsteps⟩
          · rcases List.mem_pair.mp hmem with heq | heq
            · obtain ⟨rfl, rfl⟩ := Prod.mk.inj heq
              cases hfirst (.list (List.forall_mem_singleton.mpr (.link .table rfl))) ⟨_, hsteps⟩
            · obtain ⟨rfl, rfl⟩ := Prod.mk.inj heq
              cases steps with
              | cons step steps => exact absurd hsteps (hinner _ _ _)
              | nil =>
                refine .cons ⟨key, rfl, Scalar.same_trans (Scalar.same_symm hsame) hkey⟩ .nil

private theorem not_tooDeep_ownStyles : ¬TooDeep ownStyles otherStyle := by
  rintro ⟨-, path, hlength, hmeets⟩
  match path, hlength, hmeets with
  | [], hlength, _ => simp [mergeDepth] at hlength
  | [_], hlength, _ => simp [mergeDepth] at hlength
  | k :: k' :: path, _, hmeets =>
    obtain ⟨v, hv, hmeets⟩ := meets_cons_iff.mp hmeets
    obtain ⟨_, hmem, -⟩ := Table.mem_of_find? hv
    obtain ⟨-, rfl⟩ := Prod.mk.inj (List.mem_singleton.mp hmem)
    obtain ⟨w, hw, -, htable⟩ := meets_cons_iff.mp hmeets
    obtain ⟨_, hmem, -⟩ := Table.mem_of_find? hw
    rcases List.mem_pair.mp hmem with heq | heq
    · obtain ⟨-, rfl⟩ := Prod.mk.inj heq
      cases path <;> cases htable
    · obtain ⟨-, rfl⟩ := Prod.mk.inj heq
      cases path <;> cases htable

/-- A table that stands in two places does no harm where nothing is merged into it. -/
theorem overlayLinked_alike_fillLinked_styles :
    (RegularTable ownStyles ∧ RegularTable otherStyle ∧ SoleIn ownStyles otherStyle ∧
      SoleIn otherStyle ownStyles ∧ ¬TooDeep ownStyles otherStyle) ∧
      ∃ r r', overlayLinked ownStyles otherStyle = .ok r ∧
        fillLinked otherStyle ownStyles = .ok r' ∧ AlikeTables r r' ∧
        LeadsTo r [.key "style", .key "indent"] #[] (.int 4) ∧
        LeadsTo r' [.key "style", .key "indent"] #[] (.int 4) := by
  have hother : SoleIn otherStyle ownStyles := soleIn_of_plain regularTable_otherStyle.bounded ownStyles
  obtain ⟨r, r', hover, hunder, halike, ⟨hshows, hshows'⟩, -⟩ :=
    (overlayLinked_alike_fillLinked regularTable_ownStyles regularTable_otherStyle soleIn_ownStyles
      hother).2 not_tooDeep_ownStyles
  refine ⟨⟨regularTable_ownStyles, regularTable_otherStyle, soleIn_ownStyles, hother,
    not_tooDeep_ownStyles⟩, r, r', hover, hunder, halike, ?_, ?_⟩
  · exact hshows [.key "style", .key "indent"] (.int 4) rfl rfl
  · exact hshows' [.key "style", .key "indent"] (.int 4) rfl rfl

-- Settings in which two languages share a table, and settings for one of the languages.
private def sharedStyle : Linked :=
  (#[.table [("render_style", "full")]], [("kotlin", .link 0 .table), ("swift", .link 0 .table)])

private def kotlinStyle : Linked := (#[], [("kotlin", .table [("render_style", "compact")])])

-- what is laid over one language shows in the other one, and what is filled in from them does not
example :
    (overlayLinked sharedStyle kotlinStyle).map
        (fun r => r.1.at? (.table r.2) [.key "swift", .key "render_style"]) =
      .ok (some (.text "compact")) ∧
    (fillLinked kotlinStyle sharedStyle).map
        (fun r => r.1.at? (.table r.2) [.key "swift", .key "render_style"]) =
      .ok (some (.text "full")) := ⟨rfl, by cbv⟩

end BindGen.Settings

import BindGen.Proofs.Settings.Laid
import BindGen.Proofs.Settings.Layers

/-!
# Merging lays views over each other

Entries are merged one after the other, into tables at every depth. Where there is only one way to
each table that is written to, the table is as ready for the rest of the entries as it was for the
first. So a merge lays the view of the source over that of the target, or under it, and it fails
only where tables meet deeper than it goes.
-/

namespace BindGen.Settings

open Value Links

variable {l l' l₁ source : Links} {t t' t₁ entries rest : Table Value} {v : Value}
  {k key : Scalar} {e : Scalar × Value} {place depth : Nat} {clash : Clash}

/-! ## One entry after the other -/

/-- An entry meets a view at its root where the view is a table. -/
theorem meets_nil_iff {u : View} : u.Meets (source.view (.table entries)) [] ↔ u.IsTable :=
  and_iff_left (isTable_view (source.table?_table entries))

/-- An entry meets a view below a key where what lies beyond the key meets what the entry has
there. -/
theorem meets_cons_iff {u : View} {path : List Scalar} :
    u.Meets (source.view (.table entries)) (k :: path) ↔
      ∃ v, Table.find? entries k = some v ∧ (u.beyond (.key k)).Meets (source.view v) path := by
  have hsource (steps : List Step) : source.view (.table entries) (.key k :: steps) =
      (Table.find? entries k).bind fun v => source.view v steps := by
    rw [view_key (source.table?_table entries), under]
    cases Table.find? entries k <;> rfl
  rw [View.Meets, List.map_cons, hsource]
  cases Table.find? entries k with
  | none => simp
  | some v =>
    refine ⟨fun h => ⟨v, rfl, h⟩, ?_⟩
    rintro ⟨w, hw, h⟩
    obtain rfl := Option.some.inj hw
    exact h

/-- With more entries more tables meet. -/
theorem meets_mono {u : View} {path : List Scalar}
    (hsub : ∀ key v, Table.find? rest key = some v → Table.find? entries key = some v)
    (h : u.Meets (source.view (.table rest)) path) : u.Meets (source.view (.table entries)) path := by
  cases path with
  | nil => exact meets_nil_iff.mpr (meets_nil_iff.mp h)
  | cons k path =>
    obtain ⟨v, hv, hmeets⟩ := meets_cons_iff.mp h
    exact meets_cons_iff.mpr ⟨v, hsub k v hv, hmeets⟩

private theorem not_same_of_find? (hd : Table.Distinct (e :: rest))
    (hv : Table.find? rest key = some v) :
    ¬e.1.same key = true := by
  intro hsame
  obtain ⟨k, hmem, hk⟩ := Table.mem_of_find? hv
  have hne := (List.pairwise_cons.mp hd).1 _ hmem
  rw [Scalar.same_trans hsame (Scalar.same_symm hk)] at hne
  cases hne

private theorem find?_cons_of_rest (hd : Table.Distinct (e :: rest))
    (hv : Table.find? rest key = some v) :
    Table.find? (e :: rest) key = some v := by
  rw [Table.find?, if_neg (not_same_of_find? hd hv)]
  exact hv

private theorem find?_cons_of_single (rest : Table Value) (hv : Table.find? [e] key = some v) :
    Table.find? (e :: rest) key = some v := by
  rw [Table.find?] at hv ⊢
  split at hv
  · next hsame =>
    rw [if_pos hsame]
    exact hv
  · cases hv

private theorem Mergeable.single (h : Mergeable l place t (source.view (.table (e :: rest)))) :
    Mergeable l place t (source.view (.table [e])) :=
  ⟨h.closed, h.content, h.sole.mono fun _ => meets_mono fun _ _ => find?_cons_of_single rest⟩

namespace Merged

/-- Under other keys one sees and reaches the same. -/
theorem other (h : Merged clash source place [e] t l l₁ t₁)
    (hready : Mergeable l place t (source.view (.table [e]))) (hne : ¬e.1.same key = true) :
    (l₁.view (.link place .table)).beyond (.key key) = (l.view (.link place .table)).beyond (.key key) ∧
      ∀ steps, l₁.labelAt (.link place .table) (.key key :: steps) =
        l.labelAt (.link place .table) (.key key :: steps) := by
  have hlacks : Table.find? [e] key = none := by
    rw [Table.find?, if_neg hne]
    rfl
  have htable := table?_link h.content .table
  refine ⟨?_, fun steps => ?_⟩
  · rw [beyond_key htable, beyond_key hready.table?, h.laid key, under_cons, if_neg hne]
    exact congrArg (Option.getD · _) (Clash.laid_none_right clash _)
  · rw [labelAt_key htable, labelAt_key hready.table?, h.others key hlacks]
    cases hc : Table.find? t key with
    | none => rfl
    | some c =>
      exact (hready.sole.unchanged hready.table? hready.closed (.link .table hready.lt) h.frame hlacks
        hc).labelAt steps

/-- The rest of the entries meets what it met before. -/
theorem meets_rest_iff (h : Merged clash source place [e] t l l₁ t₁)
    (hready : Mergeable l place t (source.view (.table [e]))) (hd : Table.Distinct (e :: rest))
    {path : List Scalar} :
    (l₁.view (.link place .table)).Meets (source.view (.table rest)) path ↔
      (l.view (.link place .table)).Meets (source.view (.table rest)) path := by
  cases path with
  | nil =>
    rw [meets_nil_iff, meets_nil_iff]
    exact iff_of_true (isTable_view (table?_link h.content .table)) (isTable_view hready.table?)
  | cons k path =>
    rw [meets_cons_iff, meets_cons_iff]
    refine exists_congr fun v => and_congr_right fun hv => ?_
    rw [(h.other hready (not_same_of_find? hd hv)).1]

/-- Where the rest of the entries meets a table its label is that from before. -/
theorem labelAt_rest (h : Merged clash source place [e] t l l₁ t₁)
    (hready : Mergeable l place t (source.view (.table [e]))) (hd : Table.Distinct (e :: rest))
    {u : View} {path : List Scalar} (hmeets : u.Meets (source.view (.table rest)) path) :
    l₁.labelAt (.link place .table) (path.map .key) =
      l.labelAt (.link place .table) (path.map .key) := by
  cases path with
  | nil => rfl
  | cons k path =>
    obtain ⟨v, hv, -⟩ := meets_cons_iff.mp hmeets
    exact (h.other hready (not_same_of_find? hd hv)).2 _

/-- The table is ready for the rest of the entries. -/
theorem mergeable_rest (h : Merged clash source place [e] t l l₁ t₁)
    (hready : Mergeable l place t (source.view (.table (e :: rest))))
    (hd : Table.Distinct (e :: rest)) :
    Mergeable l₁ place t₁ (source.view (.table rest)) := by
  refine ⟨h.closed, h.content, fun path label hmeets hlabel steps hsteps => ?_⟩
  rw [h.labelAt_rest hready.single hd hmeets] at hlabel
  have hmeets' := (h.meets_rest_iff hready.single hd).mp hmeets
  have hall := meets_mono (fun _ _ => find?_cons_of_rest hd) hmeets'
  have hin : label < l.size := hready.closed.lt_of_reaches (.link .table hready.lt) ⟨_, hlabel⟩
  have halong := hready.sole path label hall hlabel
  cases steps with
  | nil => exact halong [] hsteps
  | cons step steps =>
    have htable := table?_link h.content .table
    cases step with
    | place n =>
      rw [labelAt, at?_place htable] at hsteps
      cases hsteps
    | key key =>
      by_cases hsame : e.1.same key = true
      · -- what is new under the key leads to no more than what was there
        obtain ⟨c', hc', hr⟩ := exists_of_labelAt_key htable hsteps
        obtain ⟨c, hc, hr⟩ := h.reach key c' hc' label hin ⟨_, hr⟩
        obtain ⟨k, path, rfl, hk⟩ := hready.sole.exists_same hready.table? hc hr hall hlabel
        obtain ⟨v, hv, -⟩ := meets_cons_iff.mp hmeets
        exact absurd (Scalar.same_trans hsame (Scalar.same_symm hk)) (not_same_of_find? hd hv)
      · rw [(h.other hready.single hsame).2] at hsteps
        exact halong _ hsteps

/-- Merging no entries leaves everything as it is. -/
theorem nil (h : Mergeable l place t (source.view (.table []))) :
    Merged clash source place [] t l l t where
  closed := h.closed
  size := Nat.le_refl _
  content := h.content
  frame _ _ _ := rfl
  others _ _ := rfl
  reach _ c hc _ _ hr := ⟨c, hc, hr⟩
  laid _ := (Clash.laid_none_right clash _).symm

/-- Entries that are merged one after the other. -/
theorem cons (h : Merged clash source place [e] t l l₁ t₁)
    (hrest : Merged clash source place rest t₁ l₁ l' t')
    (hready : Mergeable l place t (source.view (.table (e :: rest))))
    (hd : Table.Distinct (e :: rest)) :
    Merged clash source place (e :: rest) t l l' t' := by
  refine ⟨hrest.closed, Nat.le_trans h.size hrest.size, hrest.content, fun label hlabel hnot => ?_,
    fun key hkey => ?_, fun key c' hc' label hlabel hr => ?_, fun key => ?_⟩
  · have hfirst : ¬Written l (.link place .table) (source.view (.table [e])) label := by
      rintro ⟨path, hmeets, hpath⟩
      exact hnot ⟨path, meets_mono (fun _ _ => find?_cons_of_single rest) hmeets, hpath⟩
    have hlater : ¬Written l₁ (.link place .table) (source.view (.table rest)) label := by
      rintro ⟨path, hmeets, hpath⟩
      rw [h.labelAt_rest hready.single hd hmeets] at hpath
      have hmeets' := (h.meets_rest_iff hready.single hd).mp hmeets
      exact hnot ⟨path, meets_mono (fun _ _ => find?_cons_of_rest hd) hmeets', hpath⟩
    rw [hrest.frame label (Nat.lt_of_lt_of_le hlabel h.size) hlater, h.frame label hlabel hfirst]
  · have hne : ¬e.1.same key = true := fun hsame => by
      rw [Table.find?, if_pos hsame] at hkey
      cases hkey
    rw [Table.find?, if_neg hne] at hkey
    rw [hrest.others key hkey, h.others key]
    rw [Table.find?, if_neg hne]
    rfl
  · obtain ⟨c₁, hc₁, hr₁⟩ :=
      hrest.reach key c' hc' label (Nat.lt_of_lt_of_le hlabel h.size) hr
    exact h.reach key c₁ hc₁ label hlabel hr₁
  · rw [hrest.laid, h.laid, under_cons, under_cons]
    split
    · next hsame =>
      have hnone : source.under rest key = none := by
        rw [under, Option.map_eq_none_iff]
        cases hv : Table.find? rest key with
        | none => rfl
        | some v => exact absurd hsame (not_same_of_find? hd hv)
      rw [hnone, Clash.laid_none_right]
    · rw [show source.under [] key = none from rfl, Clash.laid_none_right]

end Merged

/-! ## Tables at every depth -/

/-- A merge goes too deep, or it has a result. -/
def Settles {α : Type} (deep : Prop) (P : α → Prop) (x : Except Fault α) : Prop :=
  (deep → x = .error .endless) ∧ (¬deep → ∃ a, x = .ok a ∧ P a)

namespace Settles

variable {α β : Type} {deep deep' : Prop} {P P' : α → Prop} {Q : β → Prop} {x : Except Fault α}

/-- A success settles what its value satisfies where nothing is too deep. -/
theorem ok {a : α} (hdeep : ¬deep) (h : P a) : Settles deep P (.ok a) :=
  ⟨fun hd => absurd hd hdeep, fun _ => ⟨a, rfl, h⟩⟩

/-- Two steps settle where both do, and run too deep where either does. -/
theorem bind {g : α → Except Fault β} (h : Settles deep P x)
    (hg : ∀ a, P a → Settles deep' Q (g a)) : Settles (deep ∨ deep') Q (x >>= g) := by
  refine ⟨fun hdeep => ?_, fun hdeep => ?_⟩
  · by_cases hfirst : deep
    · rw [h.1 hfirst]
      rfl
    · obtain ⟨a, rfl, ha⟩ := h.2 hfirst
      exact (hg a ha).1 (hdeep.resolve_left hfirst)
  · obtain ⟨hfirst, hlater⟩ := not_or.mp hdeep
    obtain ⟨a, rfl, ha⟩ := h.2 hfirst
    exact (hg a ha).2 hlater

/-- What is settled settles what follows from it. -/
theorem imp (h : Settles deep P x) (hp : ∀ a, P a → P' a) : Settles deep P' x := by
  refine ⟨h.1, fun hdeep => ?_⟩
  obtain ⟨a, hx, ha⟩ := h.2 hdeep
  exact ⟨a, hx, hp a ha⟩

/-- A change of the value settles what the changed value satisfies. -/
theorem map {f : α → β} (h : Settles deep P x) (hf : ∀ a, P a → Q (f a)) :
    Settles deep Q (do return f (← x)) := by
  refine ⟨fun hdeep => ?_, fun hdeep => ?_⟩
  · rw [h.1 hdeep]
    rfl
  · obtain ⟨a, rfl, ha⟩ := h.2 hdeep
    exact ⟨f a, rfl, hf a ha⟩

/-- What is too deep may be said in another way. -/
theorem congr (h : Settles deep P x) (hdeep : deep ↔ deep') : Settles deep' P x :=
  ⟨fun hd => h.1 (hdeep.mpr hd), fun hd => h.2 fun hd' => hd (hdeep.mp hd')⟩

end Settles

/-- Where values meet at all both are tables. -/
theorem exists_tables_of_meets {w : Value} {path : List Scalar}
    (h : (l.view v).Meets (source.view w) path) :
    (∃ t, l.table? v = some t) ∧ ∃ entries, source.table? w = some entries := by
  have htable (l : Links) (v : Value) (hv : l.view v (path.map .key) = some .table) :
      ∃ t, l.table? v = some t := by
    cases path with
    | nil => exact isTable_view_iff.mp hv
    | cons k path =>
      rw [List.map_cons, view, at?_cons, child?, ← table?_eq] at hv
      cases ht : l.table? v with
      | some t => exact ⟨t, rfl⟩
      | none =>
        rw [ht] at hv
        cases hv
  exact ⟨htable l v h.1, htable source w h.2⟩

/-- Values of which one is no table are not too deep to merge. -/
theorem not_deep_of_not_tables {w : Value}
    (h : l.table? v = none ∨ source.table? w = none) : ¬(l.view v).Deep depth (source.view w) := by
  rintro ⟨path, -, hmeets⟩
  obtain ⟨⟨t, ht⟩, entries, hentries⟩ := exists_tables_of_meets hmeets
  rcases h with h | h
  · rw [ht] at h
    cases h
  · rw [hentries] at h
    cases h

/-- What cannot be merged is kept or replaced. -/
theorem merged_of_not_tables (clash : Clash) {w : Value}
    (h : l.table? v = none ∨ source.table? w = none) :
    clash.merged (l.view v) (source.view w) =
      match clash with
      | .keep => l.view v
      | .replace => source.view w := by
  have hviews : ¬(l.view v).IsTable ∨ ¬(source.view w).IsTable := by
    rw [isTable_view_iff, isTable_view_iff]
    exact h.imp (fun hv => by simp [hv]) fun hw => by simp [hw]
  cases clash with
  | keep => exact View.above_of_not_isTable hviews
  | replace => exact View.above_of_not_isTable hviews.symm

/-- Two options that are not both there leave one of them empty. -/
theorem eq_none_of_not_some {α β : Type} {x : Option α} {y : Option β}
    (h : ∀ a b, x = some a → y = some b → False) : x = none ∨ y = none := by
  cases x with
  | none => exact .inl rfl
  | some a => exact .inr (Option.eq_none_iff_forall_ne_some.mpr fun b => h a b rfl)

/-- Entries go deep if one of them does. -/
theorem deep_cons_iff {u : View} (hd : Table.Distinct (e :: rest)) :
    u.Deep (depth + 1) (source.view (.table (e :: rest))) ↔
      u.Deep (depth + 1) (source.view (.table [e])) ∨
        u.Deep (depth + 1) (source.view (.table rest)) := by
  obtain ⟨k', v'⟩ := e
  constructor
  · rintro ⟨path, hlength, hmeets⟩
    cases path with
    | nil => cases hlength
    | cons k path =>
      obtain ⟨v, hv, hmeets⟩ := meets_cons_iff.mp hmeets
      rw [Table.find?] at hv
      split at hv
      · next hsame =>
        have hfirst : Table.find? [(k', v')] k = some v := by
          rw [Table.find?, if_pos hsame]
          exact hv
        exact .inl ⟨k :: path, hlength, meets_cons_iff.mpr ⟨v, hfirst, hmeets⟩⟩
      · exact .inr ⟨k :: path, hlength, meets_cons_iff.mpr ⟨v, hv, hmeets⟩⟩
  · rintro (⟨path, hlength, hmeets⟩ | ⟨path, hlength, hmeets⟩)
    · exact ⟨path, hlength, meets_mono (fun _ _ => find?_cons_of_single rest) hmeets⟩
    · exact ⟨path, hlength, meets_mono (fun _ _ => find?_cons_of_rest hd) hmeets⟩

/-- An entry goes as deep as its value meets what stands under its key. -/
theorem deep_single_iff {place : Value} (ht : l.table? place = some t) :
    (l.view place).Deep (depth + 1) (source.view (.table [(k, v)])) ↔
      ∃ old, Table.find? t k = some old ∧ (l.view old).Deep depth (source.view v) := by
  constructor
  · rintro ⟨path, hlength, hmeets⟩
    cases path with
    | nil => cases hlength
    | cons k' path =>
      obtain ⟨v', hv, hmeets⟩ := meets_cons_iff.mp hmeets
      rw [Table.find?] at hv
      split at hv
      · next hsame =>
        obtain rfl := Option.some.inj hv
        rw [beyond_key ht, ← under_congr l t hsame, under] at hmeets
        cases hold : Table.find? t k with
        | none =>
          rw [hold] at hmeets
          cases hmeets.1
        | some old =>
          rw [hold] at hmeets
          exact ⟨old, rfl, path, Nat.succ.inj hlength, hmeets⟩
      · cases hv
  · rintro ⟨old, hold, path, hlength, hmeets⟩
    refine ⟨k :: path, congrArg Nat.succ hlength, meets_cons_iff.mpr ⟨v, ?_, ?_⟩⟩
    · rw [Table.find?, if_pos (Scalar.same_refl k)]
    · rw [beyond_key ht, under, hold]
      exact hmeets

/-- Nothing is deep without entries. -/
theorem not_deep_nil {u : View} : ¬u.Deep (depth + 1) (source.view (.table [])) := by
  rintro ⟨path, hlength, hmeets⟩
  cases path with
  | nil => cases hlength
  | cons k path =>
    obtain ⟨v, hv, -⟩ := meets_cons_iff.mp hmeets
    cases hv

/-- What one entry does not change does not change how deep the others go. -/
theorem Merged.deep_rest_iff (h : Merged clash source place [e] t l l₁ t₁)
    (hready : Mergeable l place t (source.view (.table [e]))) (hd : Table.Distinct (e :: rest)) :
    (l₁.view (.link place .table)).Deep depth (source.view (.table rest)) ↔
      (l.view (.link place .table)).Deep depth (source.view (.table rest)) :=
  exists_congr fun _ => and_congr_right fun _ => h.meets_rest_iff hready hd

/-- An entry is merged as it should be if the tables that it leads into are. -/
theorem settles_mergeEntry (hs : source.Regular)
    (hinner : ∀ {l : Links} {place : Nat} {t entries : Table Value},
      Bounded source.size (.table entries) → Keyed (.table entries) →
      Mergeable l place t (source.view (.table entries)) →
      Settles ((l.view (.link place .table)).Deep depth (source.view (.table entries)))
        (fun l' => ∃ t', Merged clash source place entries t l l' t')
        (mergeAt clash source depth place entries l))
    (hv : Bounded source.size v) (hk : Keyed v)
    (h : Mergeable l place t (source.view (.table [(k, v)]))) :
    Settles ((l.view (.link place .table)).Deep (depth + 1) (source.view (.table [(k, v)])))
      (fun l' => ∃ t', Merged clash source place [(k, v)] t l l' t')
      (mergeEntry clash source depth place l (k, v)) := by
  have hdeep {old : Value} (hold : Table.find? t k = some old) :
      (l.view old).Deep depth (source.view v) ↔
        (l.view (.link place .table)).Deep (depth + 1) (source.view (.table [(k, v)])) := by
    rw [deep_single_iff h.table?, hold]
    simp
  unfold mergeEntry
  rw [h.table?, Option.getD_some]
  dsimp only
  split
  · next hold =>
    refine .ok ?_ (merged_putCopy hs hv h ?_)
    · rw [deep_single_iff h.table?, hold]
      simp
    · rw [under, hold]
      exact Clash.laid_none_left clash _
  · next old hold =>
    split
    · next u entries hu hentries =>
      have hlabelled := labelled_labelOf h hold
      have hready := hlabelled.mergeable h hold hu hentries
      have hmerge := hinner (hs.closed.table? hv hentries) (hs.keyed_table? hk hentries) hready
      refine (hmerge.imp ?_).congr ?_
      · rintro l' ⟨t', hmerged⟩
        exact merged_inner h hold hu hentries hlabelled hmerged
      · rw [hlabelled.view, ← view_table hentries]
        exact hdeep hold
    · next hnot =>
      have htables := eq_none_of_not_some hnot
      have hfree : ¬(l.view (.link place .table)).Deep (depth + 1) (source.view (.table [(k, v)])) :=
        fun hd => not_deep_of_not_tables htables ((hdeep hold).mpr hd)
      have hlaid : clash.laid (l.under t k) (some (source.view v)) =
          some (clash.merged (l.view old) (source.view v)) := by
        rw [under, hold]
        rfl
      rw [merged_of_not_tables clash htables] at hlaid
      cases clash with
      | keep => exact .ok hfree ⟨t, merged_keep h hold hlaid⟩
      | replace => exact .ok hfree (merged_putCopy hs hv h hlaid)

/-- Merging entries lays what they show over the table, or under it, unless it goes too deep. -/
theorem settles_mergeAt (hs : source.Regular) (depth : Nat)
    (he : Bounded source.size (.table entries)) (hk : Keyed (.table entries))
    (h : Mergeable l place t (source.view (.table entries))) :
    Settles ((l.view (.link place .table)).Deep depth (source.view (.table entries)))
      (fun l' => ∃ t', Merged clash source place entries t l l' t')
      (mergeAt clash source depth place entries l) := by
  induction depth generalizing l place t entries with
  | zero =>
    have hdeep : (l.view (.link place .table)).Deep 0 (source.view (.table entries)) :=
      ⟨[], rfl, meets_nil_iff.mpr (isTable_view h.table?)⟩
    exact ⟨fun _ => rfl, fun hnot => absurd hdeep hnot⟩
  | succ depth ih =>
    rw [mergeAt_succ]
    induction entries generalizing l t with
    | nil => exact .ok not_deep_nil ⟨t, .nil h⟩
    | cons e rest ihrest =>
      obtain ⟨k, v⟩ := e
      have hd := hk.distinct
      rw [List.foldlM_cons]
      have hentry : Settles _ _ (mergeEntry clash source depth place l (k, v)) :=
        settles_mergeEntry hs (fun he hk h => ih he hk h) (he.of_mem List.mem_cons_self)
          (hk.of_mem List.mem_cons_self) h.single
      have hrest : Bounded source.size (.table rest) :=
        .table fun e hmem => he.of_mem (List.mem_cons_of_mem _ hmem)
      have hlater : ∀ l₁, (∃ t₁, Merged clash source place [(k, v)] t l l₁ t₁) →
          Settles ((l.view (.link place .table)).Deep (depth + 1) (source.view (.table rest)))
            (fun l' => ∃ t', Merged clash source place ((k, v) :: rest) t l l' t')
            (rest.foldlM (mergeEntry clash source depth place) l₁) := by
        rintro l₁ ⟨t₁, hfirst⟩
        refine ((ihrest hrest hk.tail (hfirst.mergeable_rest h hd)).imp ?_).congr
          (hfirst.deep_rest_iff h.single hd)
        rintro l' ⟨t', hmerged⟩
        exact ⟨t', hfirst.cons hmerged h hd⟩
      exact (hentry.bind hlater).congr (deep_cons_iff hd).symm

/-! ## Tables with links -/

/-- The view of a table with links. -/
def viewOf (data : Linked) : View := data.1.view (.table data.2)

/-- A table with links that can be read as it is. -/
structure RegularTable (data : Linked) : Prop where
  links : data.1.Regular
  bounded : Bounded data.1.size (.table data.2)
  keyed : Keyed (.table data.2)

/-- A regular table is closed. -/
theorem RegularTable.closed {data : Linked} (h : RegularTable data) : ClosedTable data :=
  ⟨h.links.closed, h.bounded⟩

/-- The table that is merged into is labelled for that, which changes nothing in it. -/
theorem boxed_push (ht : Bounded l.size (.table t)) (hl : l.Closed) :
    Boxed l (.table t) (l.push (.table t)) l.size := by
  refine ⟨Nat.le_refl _, ?_, rfl, unchanged_of_contents hl ht fun label hlabel => ?_⟩
  · rw [content_push, if_pos rfl]
  · rw [content_push, if_neg (Nat.ne_of_lt hlabel)]

/-- A merge lays the views over each other, unless it goes too deep. -/
theorem settles_mergeLinked (clash : Clash) {a b : Linked} (ha : ClosedTable a) (hb : RegularTable b)
    (hsole : Sole a.1 (.table a.2) (viewOf b)) :
    Settles ((viewOf a).Deep mergeDepth (viewOf b))
      (fun r => ClosedTable r ∧ viewOf r = clash.merged (viewOf a) (viewOf b))
      (mergeLinked clash a b) := by
  obtain ⟨l, t⟩ := a
  obtain ⟨source, entries⟩ := b
  have hboxed : Boxed l (.table t) (l.push (.table t)) l.size := boxed_push ha.entries ha.links
  have hready : Mergeable (l.push (.table t)) l.size t (source.view (.table entries)) :=
    ⟨ha.links.push (ha.entries.mono (Nat.le_succ _)), hboxed.content,
      hboxed.sole ha.links ha.entries hsole⟩
  rw [mergeLinked]
  refine ((settles_mergeAt hb.links mergeDepth hb.bounded hb.keyed hready).map ?_).congr ?_
  · rintro l' ⟨t', hmerged⟩
    have hfound := table?_link hmerged.content .table
    have hplace : Bounded l'.size (.link l.size .table) :=
      .link .table (Nat.lt_of_lt_of_le hready.lt hmerged.size)
    dsimp only
    rw [hfound, Option.getD_some]
    refine ⟨⟨hmerged.closed, hmerged.closed.table? hplace hfound⟩, ?_⟩
    rw [viewOf, view_of_laid hmerged.laid, hboxed.unchanged.view]
    rfl
  · rw [hboxed.view]
    rfl

end BindGen.Settings

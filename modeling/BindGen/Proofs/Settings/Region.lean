import BindGen.Proofs.Settings.Growth

/-!
# Where merging writes

A region is a set of labels that no link leads out of. Merging into a table of a region writes to
labels of the region only, and to new ones. So a table keeps everything, key by key, while other
tables are merged into, if no link from these leads to it.
-/

namespace BindGen

namespace Value

variable {P Q : Nat → Prop} {v : Value}

namespace Labels

/-- A value whose labels satisfy two conditions has labels that satisfy both. -/
theorem and (hp : Labels P v) (hq : Labels Q v) : Labels (fun label => P label ∧ Q label) v := by
  induction hp with
  | scalar s => exact .scalar s
  | list _ ih =>
    cases hq with
    | list hitems => exact .list fun x hx => ih x hx (hitems x hx)
  | pair _ _ iha ihb =>
    cases hq with
    | pair ha hb => exact .pair (iha ha) (ihb hb)
  | set members => exact .set members
  | table _ ih =>
    cases hq with
    | table hentries => exact .table fun e he => ih e he (hentries e he)
  | link kind hlabel =>
    cases hq with
    | link _ hlabel' => exact .link kind ⟨hlabel, hlabel'⟩

/-- Labels that are moved up are not below the offset. -/
theorem le_relabel (h : Labels P v) (offset : Nat) : Labels (offset ≤ ·) (v.relabel offset) :=
  h.mapLinks fun _ kind _ => .link kind (Nat.le_add_left offset _)

end Labels

end Value

namespace Links

open Value

variable {U : Nat → Prop} {l l' l'' source : Links} {label : Nat} {v : Value}

/-- No link leads from a label of the region to one that is not in it, and all labels that are still
free are in it. -/
structure Region (l : Links) (U : Nat → Prop) : Prop where
  inside : ∀ label, U label → Labels U (l.content label)
  free : ∀ label, l.size ≤ label → U label

namespace Region

private theorem push (h : Region l U) (hv : Labels U v) : Region (l.push v) U where
  inside label hlabel := by
    rw [content_push]
    split
    · exact hv
    · exact h.inside label hlabel
  free label hlabel := h.free label (by rw [Array.size_push] at hlabel; omega)

/-- A value with labels of its own region leaves the region one. -/
theorem setIfInBounds (h : Region l U) (hv : U label → Labels U v) :
    Region (l.setIfInBounds label v) U where
  inside label' hlabel := by
    rw [content_setIfInBounds]
    split
    · next hsame => exact hv (hsame.1 ▸ hlabel)
    · exact h.inside label' hlabel
  free label' hlabel := h.free label' (by rwa [Array.size_setIfInBounds] at hlabel)

/-- What is adopted is in the region. -/
theorem adopt (h : Region l U) (hs : source.Closed) (hv : Bounded source.size v) :
    Region (l.adopt source v).1 U ∧ Labels U (l.adopt source v).2 := by
  have hmoved {x : Value} (hx : Bounded source.size x) : Labels U (x.relabel l.size) :=
    (hx.le_relabel l.size).imp h.free
  rw [Links.adopt]
  split
  · next hempty =>
    have hzero : source.size = 0 := by simpa using hempty
    exact ⟨h, hv.imp fun label hlabel => absurd hlabel (by omega)⟩
  · refine ⟨⟨fun label hlabel => ?_, fun label hlabel => h.free label ?_⟩, hmoved hv⟩
    · rw [content_append]
      split
      · exact h.inside label hlabel
      · by_cases hin : label - l.size < source.size
        · have hcontent : content (source.map (relabel l.size)) (label - l.size) =
              (source.content (label - l.size)).relabel l.size := by
            simp [content, hin]
          rw [hcontent]
          exact hmoved (hs _ hin)
        · rw [content_of_ge (by simpa using hin)]
          exact .scalar .null
    · simp only [Array.size_append, Array.size_map] at hlabel
      omega

/-- What is there can also do without a label that is still free. -/
theorem labels_without (hv : Labels U v) (hbounded : Bounded l.size v) :
    Labels (fun label => U label ∧ label ≠ l.size) v :=
  hv.and (hbounded.imp fun _ => Nat.ne_of_lt)

/-- A label that is given to a value can be kept out of the region. -/
theorem without (h : Region l U) (hl : l.Closed) (v : Value) :
    Region (l.push v) fun label => U label ∧ label ≠ l.size where
  inside label hlabel := by
    rw [content_push, if_neg hlabel.2]
    by_cases hin : label < l.size
    · exact labels_without (h.inside label hlabel.1) (hl label hin)
    · rw [content_of_ge (Nat.le_of_not_lt hin)]
      exact .scalar .null
  free label hlabel := by
    rw [Array.size_push] at hlabel
    exact ⟨h.free label (by omega), by omega⟩

end Region

/-- Later links that differ in a region and at one more place at most. -/
structure Framed (U : Nat → Prop) (place : Nat) (l l' : Links) : Prop where
  region : Region l' U
  size : l.size ≤ l'.size
  outside : ∀ label, label ≠ place → ¬U label → l'.content label = l.content label

namespace Framed

variable {place inner : Nat}

/-- Inside a region nothing changes without a step. -/
theorem refl (h : Region l U) (place : Nat) : Framed U place l l :=
  ⟨h, Nat.le_refl _, fun _ _ _ => rfl⟩

/-- Steps that each stay inside a region do so together. -/
theorem trans (h : Framed U place l l') (h' : Framed U place l' l'') : Framed U place l l'' :=
  ⟨h'.region, Nat.le_trans h.size h'.size, fun label hne hlabel =>
    (h'.outside label hne hlabel).trans (h.outside label hne hlabel)⟩

/-- A place in the region is no place of its own. -/
theorem of_inside (h : Framed U inner l l') (hinner : U inner) (place : Nat) :
    Framed U place l l' := by
  refine ⟨h.region, h.size, fun label _ hlabel => h.outside label ?_ hlabel⟩
  rintro rfl
  exact hlabel hinner

end Framed

end Links

namespace Settings

open Value Links

variable {U : Nat → Prop} {l l' source : Links} {place : Nat} {t u entries : Table Value}
  {k key : Scalar} {v old : Value} {clash : Clash}

/-! ## Single writes -/

/-- Putting a copy under a key writes to the place of the table. -/
theorem framed_putCopy (h : Region l U) (ht : U place → Labels U (.table t)) (hs : source.Closed)
    (hv : Bounded source.size v) : Framed U place l (putCopy source place t k v l) := by
  obtain ⟨hsize, -, -, hkept⟩ := adopt_spec (l := l) hs hv
  obtain ⟨hregion, hcopy⟩ := h.adopt hs hv
  rw [putCopy]
  refine ⟨hregion.setIfInBounds fun hplace => (ht hplace).put k hcopy, by simpa using hsize,
    fun label hne hlabel => ?_⟩
  have hold : label < l.size := Nat.lt_of_not_le fun hge => hlabel (h.free label hge)
  rw [content_setIfInBounds, if_neg fun hsame => hne hsame.1.symm, hkept label hold]

/-- The copy under the key is in the region, and it is the value itself if that has no links. -/
theorem content_putCopy (h : Region l U) (hs : source.Closed) (hv : Bounded source.size v)
    (hplace : place < l.size) : ∃ copy, Labels U copy ∧ (Bounded 0 v → copy = v) ∧
      (putCopy source place t k v l).content place = .table (Table.put t k copy) := by
  obtain ⟨hsize, -, -, -⟩ := adopt_spec (l := l) hs hv
  refine ⟨(l.adopt source v).2, (h.adopt hs hv).2, fun hplain => ?_, ?_⟩
  · rw [adopt]
    split
    · rfl
    · exact hplain.mapLinks_eq _
  · rw [putCopy, content_setIfInBounds, if_pos ⟨rfl, Nat.lt_of_lt_of_le hplace hsize⟩]

/-- Giving a label to a table writes to the place of the table around it. -/
theorem framed_labelOf (h : Region l U) (ht : U place → Labels U (.table t)) (hold : Labels U old) :
    Framed U place l (labelOf place t k old l).1 ∧ U (labelOf place t k old l).2 := by
  unfold labelOf
  split
  · cases hold with
    | link _ hinner => exact ⟨.refl h place, hinner⟩
  · have hnew : U l.size := h.free _ (Nat.le_refl _)
    refine ⟨⟨(h.push hold).setIfInBounds fun hplace => (ht hplace).put k (.link .table hnew),
      by simp, fun label hne hlabel => ?_⟩, hnew⟩
    have hin : label ≠ l.size := by
      rintro rfl
      exact hlabel hnew
    rw [content_setIfInBounds, if_neg fun hsame => hne hsame.1.symm, content_push, if_neg hin]

/-- The table around a table that is given a label stays, or holds a link to that label. -/
theorem content_labelOf (hplace : place < l.size) (htable : l.content place = .table t) (k : Scalar)
    (old : Value) :
    (labelOf place t k old l).1.content place = .table t ∨
      (labelOf place t k old l).1.content place =
        .table (Table.put t k (.link (labelOf place t k old l).2 .table)) := by
  unfold labelOf
  split
  · exact .inl htable
  · refine .inr ?_
    have hin : place < (l.push old).size := by
      rw [Array.size_push]
      omega
    rw [content_setIfInBounds, if_pos ⟨rfl, hin⟩]

/-! ## Filling within a region -/

/-- A table in a region is in the region with all that it holds. -/
theorem labels_tableAt (h : Region l U) (hplace : U place) :
    Labels U (.table ((l.table? (.link place .table)).getD [])) := by
  have hcontent := h.inside place hplace
  rw [Links.table?]
  cases hc : l.content place with
  | table t =>
    rw [hc] at hcontent
    exact hcontent
  | _ => exact .empty

/-- Filling entries into a table of a region writes to the region only, however far it comes. -/
theorem framed_fillUnder (hs : source.Closed) (depth : Nat) (h : Region l U) (hplace : U place)
    (he : Bounded source.size (.table entries)) :
    Framed U place l (fillUnder source depth place entries l).reached := by
  induction depth generalizing place entries l with
  | zero => exact .refl h place
  | succ depth ih =>
    rw [fillUnder]
    refine Progress.reached_through (P := fun l => Region l U) (R := Framed U place)
      (fun h => .refl h place) Framed.trans (fun _ hf => hf.region) (fun entry hentry l h => ?_) h
    have ht := labels_tableAt h hplace
    have hvalue : Bounded source.size entry.2 := he.of_mem hentry
    rw [fillStep]
    dsimp only
    generalize (l.table? (.link place .table)).getD [] = t at ht
    cases hfind : Table.find? t entry.1 with
    | none => exact framed_putCopy h (fun _ => ht) hs hvalue
    | some old =>
      dsimp only
      split
      · next hsettled =>
        split at hsettled
        · cases hsettled
        · cases hsettled
          exact .refl h place
      · next hwithin =>
        split at hwithin
        · next inner _ hinner =>
          cases hwithin
          obtain ⟨hlabelled, hnext⟩ := framed_labelOf (k := entry.1) h (fun _ => ht) (ht.of_find? hfind)
          exact hlabelled.trans ((ih hlabelled.region hnext (hs.table? hvalue hinner)).of_inside
            hnext place)
        · cases hwithin

/-! ## Whole values -/

/-- A value that is merged as a whole: it is no table, and there are no links in it. -/
structure Whole (v : Value) : Prop where
  isTable : v.isTable = false
  bounded : Bounded 0 v

/-- A whole value is no table. -/
theorem Whole.table? (h : Whole v) (l : Links) : l.table? v = none := by
  rw [table?_eq, held_of_bounded l h.bounded]
  exact isTable_eq_false_iff.mp h.isTable

/-- What stands under a key of the target after a merge with a whole value of the source. -/
def Clash.settled : Clash → Option Value → Option Value → Option Value
  | .keep, old, new => old.or new
  | .replace, old, new => new.or old

/-- Nothing settles over a value but the value. -/
@[simp] theorem Clash.settled_none (clash : Clash) (old : Option Value) :
    clash.settled old none = old := by
  cases clash
  · exact Option.or_none
  · exact Option.none_or

/-- What one entry of a source makes of a table. -/
structure MergesEntry (clash : Clash) (U : Nat → Prop) (t : Table Value) (entry : Scalar × Value)
    (t' : Table Value) : Prop where
  distinct : Table.Distinct t → Table.Distinct t'
  values : ∀ e ∈ t', e ∈ t ∨ Labels U e.2
  others : ∀ key, entry.1.same key = false → Table.find? t' key = Table.find? t key
  whole : Whole entry.2 →
    Table.find? t' entry.1 = clash.settled (Table.find? t entry.1) (some entry.2)

/-- An entry whose value settles as a put does merges by that put. -/
theorem mergesEntry_put {entry : Scalar × Value} (hv : Labels U v)
    (hwhole : Whole entry.2 → clash.settled (Table.find? t entry.1) (some entry.2) = some v) :
    MergesEntry clash U t entry (Table.put t entry.1 v) where
  distinct ht := Table.distinct_put ht entry.1 v
  values e he := by
    rcases Table.snd_of_mem_put he with heq | he
    · exact .inr (heq ▸ hv)
    · exact .inl he
  others key hne := by
    rw [Table.find?_put, hne, if_neg Bool.false_ne_true]
  whole hv := by
    rw [Table.find?_put, if_pos (Scalar.same_refl _), hwhole hv]

/-- An entry that settles as what is there already merges into the same table. -/
theorem mergesEntry_refl {entry : Scalar × Value}
    (h : Whole entry.2 →
      clash.settled (Table.find? t entry.1) (some entry.2) = Table.find? t entry.1) :
    MergesEntry clash U t entry t :=
  ⟨id, fun _ => .inl, fun _ _ => rfl, fun hv => (h hv).symm⟩

/-- A merge settles each key whose value in the source is whole. -/
def MergesWhole (clash : Clash) (t entries t' : Table Value) : Prop :=
  ∀ key, (∀ v, Table.find? entries key = some v → Whole v) →
    Table.find? t' key = clash.settled (Table.find? t key) (Table.find? entries key)

/-- No entries merge into the same table. -/
theorem MergesWhole.nil (clash : Clash) (t : Table Value) : MergesWhole clash t [] t := by
  intro key _
  rw [Table.find?_nil, Clash.settled_none]

/-- Entries merge whole where the first does and the others do behind it, under other keys. -/
theorem MergesWhole.cons {t₁ t' rest : Table Value} {entry : Scalar × Value}
    (hrest : MergesWhole clash t₁ rest t') (hfirst : MergesEntry clash U t entry t₁)
    (hne : ∀ e ∈ rest, entry.1.same e.1 = false) : MergesWhole clash t (entry :: rest) t' := by
  intro key hv
  obtain ⟨k, v⟩ := entry
  rw [Table.find?] at hv ⊢
  cases hsame : k.same key with
  | false =>
    rw [hsame, if_neg Bool.false_ne_true] at hv
    rw [if_neg Bool.false_ne_true, hrest key hv, hfirst.others key hsame]
  | true =>
    rw [hsame, if_pos rfl] at hv
    rw [if_pos rfl]
    have hlater : Table.find? rest key = none := by
      rw [Table.find?_eq_none_iff]
      intro e hmem
      rw [Scalar.same_comm, ← Scalar.same_congr_left hsame]
      exact hne e hmem
    have hkept := hrest key (by rw [hlater]; exact fun _ h => absurd h.symm (Option.some_ne_none _))
    rw [hkept, hlater, Clash.settled_none, ← Table.find?_congr hsame, ← Table.find?_congr hsame]
    exact hfirst.whole (hv v rfl)

/-! ## Filling a table beside a region -/

/-- Keys by which the same keys are told apart from others. -/
def RespectsSame (inside : Scalar → Prop) : Prop := ∀ a b, a.same b = true → inside b → inside a

/-- Fills one entry of the source, and what is in it, into the table under a label. -/
def fillEntry (source : Links) (depth place : Nat) (links : Links) (entry : Scalar × Value) :
    Progress Links :=
  match fillStep source place links entry with
  | .settled links => .done links
  | .within links inner entries => fillUnder source depth inner entries links

/-- Filling a place is filling entry by entry, one level further down. -/
theorem fillUnder_succ (source : Links) (depth place : Nat) (entries : Table Value) (l : Links) :
    fillUnder source (depth + 1) place entries l =
      Progress.through (fillEntry source depth place) entries l := rfl

/-- One entry is filled into a table that is not in the region. -/
theorem mergesEntry_fillEntry (hs : source.Closed) (depth : Nat) (h : Region l U) (hplace : ¬U place)
    (htable : l.content place = .table t) {entry : Scalar × Value}
    (hin : ∀ old, Table.find? t entry.1 = some old → Labels U old)
    (hv : Bounded source.size entry.2) :
    ∃ t', let l' := (fillEntry source depth place l entry).reached
      Framed U place l l' ∧ l'.content place = .table t' ∧ MergesEntry .keep U t entry t' := by
  have hsize : place < l.size := Nat.lt_of_not_le fun hge => hplace (h.free place hge)
  have hout {P : Prop} (hp : U place) : P := absurd hp hplace
  have hfound : (l.table? (.link place .table)).getD [] = t := by
    rw [Links.table?, htable]
    rfl
  rw [fillEntry, fillStep]
  dsimp only
  rw [hfound]
  cases hfind : Table.find? t entry.1 with
  | none =>
    obtain ⟨copy, hcopy, hplain, hcontent⟩ := content_putCopy (t := t) (k := entry.1) h hs hv hsize
    refine ⟨_, framed_putCopy h hout hs hv, hcontent, mergesEntry_put hcopy fun hwhole => ?_⟩
    rw [hfind, hplain hwhole.bounded]
    rfl
  | some old =>
    have hsame : MergesEntry .keep U t entry t := by
      refine mergesEntry_refl fun _ => ?_
      rw [hfind]
      rfl
    dsimp only
    cases l.table? old with
    | none => exact ⟨t, .refl h place, htable, hsame⟩
    | some u =>
      cases hinner : source.table? entry.2 with
      | none => exact ⟨t, .refl h place, htable, hsame⟩
      | some inner =>
        obtain ⟨hlabelled, hnext⟩ :=
          framed_labelOf (t := t) (k := entry.1) h hout (hin old hfind)
        have hfilled := framed_fillUnder hs depth hlabelled.region hnext (hs.table? hv hinner)
        -- what is filled further down is in the region, so the table here stays as it is labelled
        have hkept := hfilled.outside place (fun heq => hplace (heq ▸ hnext)) hplace
        have hframed := hlabelled.trans (hfilled.of_inside hnext place)
        rcases content_labelOf hsize htable entry.1 old with hcontent | hcontent
        · exact ⟨t, hframed, hkept.trans hcontent, hsame⟩
        · refine ⟨_, hframed, hkept.trans hcontent, mergesEntry_put (.link .table hnext) ?_⟩
          intro hwhole
          rw [hwhole.table? source] at hinner
          cases hinner

/-- What entries of a source make of a table that they are filled into. -/
structure TakesEntries (U : Nat → Prop) (t entries t' : Table Value) : Prop where
  distinct : Table.Distinct t → Table.Distinct t'
  values : ∀ e ∈ t', e ∈ t ∨ Labels U e.2
  others : ∀ key, Table.find? entries key = none → Table.find? t' key = Table.find? t key

/-- Entries are filled into a table that is not in the region, however far this comes. -/
theorem takesEntries_fillUnder (hs : source.Closed) (depth : Nat) (h : Region l U)
    (hplace : ¬U place) (htable : l.content place = .table t) {inside : Scalar → Prop}
    (hsame : RespectsSame inside) (ht : ∀ e ∈ t, inside e.1 → Labels U e.2)
    (hentries : ∀ e ∈ entries, inside e.1) (he : Bounded source.size (.table entries))
    (hd : Table.Distinct entries) :
    ∃ t', let p := fillUnder source (depth + 1) place entries l
      Framed U place l p.reached ∧ p.reached.content place = .table t' ∧
        TakesEntries U t entries t' ∧ (p.fault = none → MergesWhole .keep t entries t') := by
  rw [fillUnder_succ]
  induction entries generalizing l t with
  | nil =>
    exact ⟨t, .refl h place, htable, ⟨id, fun _ => .inl, fun _ _ => rfl⟩, fun _ => .nil .keep t⟩
  | cons entry rest ih =>
    obtain ⟨hne, hd⟩ := List.pairwise_cons.mp hd
    have hvalue : Bounded source.size entry.2 := he.of_mem List.mem_cons_self
    have hrest : Bounded source.size (.table rest) :=
      .table fun e hmem => he.of_mem (List.mem_cons_of_mem entry hmem)
    have hin (old : Value) (hold : Table.find? t entry.1 = some old) : Labels U old := by
      obtain ⟨k, hmem, hk⟩ := Table.mem_of_find? hold
      exact ht (k, old) hmem (hsame k entry.1 hk (hentries entry List.mem_cons_self))
    obtain ⟨t₁, hframed, hcontent, htakes⟩ :=
      mergesEntry_fillEntry hs depth h hplace htable hin hvalue
    have ht₁ : ∀ e ∈ t₁, inside e.1 → Labels U e.2 := fun e hmem hinside =>
      (htakes.values e hmem).elim (fun hold => ht e hold hinside) id
    have hothers {key : Scalar} (hnone : Table.find? (entry :: rest) key = none) :
        Table.find? t₁ key = Table.find? t key ∧ Table.find? rest key = none := by
      rw [Table.find?_eq_none_iff] at hnone
      refine ⟨htakes.others key (hnone entry List.mem_cons_self), ?_⟩
      exact Table.find?_eq_none_iff.mpr fun e hmem => hnone e (List.mem_cons_of_mem entry hmem)
    rw [Progress.through, Progress.andThen]
    cases hfault : (fillEntry source depth place l entry).fault with
    | some f =>
      refine ⟨t₁, hframed, hcontent, ⟨htakes.distinct, htakes.values,
        fun key hnone => (hothers hnone).1⟩, fun hnone => ?_⟩
      cases hfault.symm.trans hnone
    | none =>
      obtain ⟨t', hframed', hcontent', hrun, hwhole⟩ := ih hframed.region hcontent ht₁
        (fun e hmem => hentries e (List.mem_cons_of_mem entry hmem)) hrest hd
      refine ⟨t', hframed.trans hframed', hcontent', ⟨fun ht => hrun.distinct (htakes.distinct ht),
        fun e hmem => ?_, fun key hnone => ?_⟩, ?_⟩
      · exact (hrun.values e hmem).elim (htakes.values e) .inr
      · obtain ⟨hfirst, hlater⟩ := hothers hnone
        exact (hrun.others key hlater).trans hfirst
      · exact fun hdone => (hwhole hdone).cons htakes hne

end Settings
end BindGen

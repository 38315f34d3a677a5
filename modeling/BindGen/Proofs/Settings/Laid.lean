import BindGen.Proofs.Settings.Alone

/-!
# What a language sees

A language sees its own table laid over the shared settings. The table that comes of it is a new
one: no link leads to it, so what is merged into the tables in it leaves its other keys alone. Under
each key with a whole value the language's own value stands, else the shared one. Only links can
keep a language from seeing anything, where tables hold themselves.
-/

namespace BindGen.Settings

open Value Links

variable {U : Nat → Prop} {l source : Links} {t t' entries : Table Value} {key : Scalar} {v : Value}
  {place : Nat}

/-! ## Overlaying a table with links -/

/-- Merges one entry of the source, and what is in it, into the table under a label. -/
def mergeEntry (clash : Clash) (source : Links) (depth place : Nat) (links : Links)
    (entry : Scalar × Value) : Except Fault Links :=
  let t := (links.table? (.link place .table)).getD []
  match Table.find? t entry.1 with
  | none => .ok (putCopy source place t entry.1 entry.2 links)
  | some old =>
    match links.table? old, source.table? entry.2 with
    | some _, some inner =>
      let (links, next) := labelOf place t entry.1 old links
      mergeAt clash source depth next inner links
    | _, _ =>
      match clash with
      | .keep => .ok links
      | .replace => .ok (putCopy source place t entry.1 entry.2 links)

/-- Merging into a place is merging entry by entry, one level further down. -/
theorem mergeAt_succ (clash : Clash) (source : Links) (depth place : Nat) (entries : Table Value)
    (l : Links) : mergeAt clash source (depth + 1) place entries l =
      entries.foldlM (mergeEntry clash source depth place) l := rfl

/-- Merging fails only where tables are nested without an end. -/
theorem failsWith_mergeLinked (clash : Clash) (target source : Linked) :
    FailsWith (· = .endless) (mergeLinked clash target source) := by
  have hdepth (depth place : Nat) (entries : Table Value) (l : Links) :
      FailsWith (· = .endless) (mergeAt clash source.1 depth place entries l) := by
    induction depth generalizing place entries l with
    | zero => exact .error rfl
    | succ depth ih =>
      rw [mergeAt_succ]
      refine FailsWith.foldlM fun l entry => ?_
      unfold mergeEntry
      dsimp only
      split
      · exact .ok _
      · split
        · exact ih _ _ _
        · cases clash <;> exact .ok _
  exact (hdepth _ _ _ _).bind fun _ _ => .ok _

/-- Overlaying a table of a region writes to the region only. -/
theorem framed_mergeAt (hs : source.Closed) (depth : Nat) (h : Region l U) (hplace : U place)
    (he : Bounded source.size (.table entries)) :
    Yields (Framed U place l) (mergeAt .replace source depth place entries l) := by
  induction depth generalizing place entries l with
  | zero => exact .error _
  | succ depth ih =>
    rw [mergeAt_succ]
    refine Yields.foldlM (fun entry hentry l₁ h₁ => ?_) (.refl h place)
    have ht := labels_tableAt h₁.region hplace
    have hvalue : Bounded source.size entry.2 := he.of_mem hentry
    unfold mergeEntry
    dsimp only
    generalize (l₁.table? (.link place .table)).getD [] = t at ht
    have hput : Framed U place l (putCopy source place t entry.1 entry.2 l₁) :=
      h₁.trans (framed_putCopy h₁.region (fun _ => ht) hs hvalue)
    split
    · exact .ok hput
    · next old hfind =>
      split
      · next inner _ hinner =>
        obtain ⟨hlabelled, hnext⟩ :=
          framed_labelOf (k := entry.1) h₁.region (fun _ => ht) (ht.of_find? hfind)
        intro l₂ hl₂
        have hwithin := ih hlabelled.region hnext (hs.table? hvalue hinner) l₂ hl₂
        exact h₁.trans (hlabelled.trans (hwithin.of_inside hnext place))
      · exact .ok hput

/-- One entry is laid over a table that is not in the region. -/
theorem mergesEntry_mergeEntry (hs : source.Closed) (depth : Nat) (h : Region l U) (hplace : ¬U place)
    (htable : l.content place = .table t) {entry : Scalar × Value}
    (hin : Labels U (.table t)) (hv : Bounded source.size entry.2) :
    Yields (fun l' => ∃ t', Region l' U ∧ l'.content place = .table t' ∧
        MergesEntry .replace U t entry t')
      (mergeEntry .replace source depth place l entry) := by
  have hsize : place < l.size := Nat.lt_of_not_le fun hge => hplace (h.free place hge)
  have hout {P : Prop} (hp : U place) : P := absurd hp hplace
  have hfound : (l.table? (.link place .table)).getD [] = t := by
    rw [Links.table?, htable]
    rfl
  have hput : ∃ t', Region (putCopy source place t entry.1 entry.2 l) U ∧
      (putCopy source place t entry.1 entry.2 l).content place = .table t' ∧
        MergesEntry .replace U t entry t' := by
    obtain ⟨copy, hcopy, hplain, hcontent⟩ := content_putCopy (t := t) (k := entry.1) h hs hv hsize
    exact ⟨_, (framed_putCopy h hout hs hv).region, hcontent,
      mergesEntry_put hcopy fun hwhole => congrArg some (hplain hwhole.bounded).symm⟩
  unfold mergeEntry
  dsimp only
  rw [hfound]
  split
  · exact .ok hput
  · next old hfind =>
    split
    · next inner _ hinner =>
      obtain ⟨hlabelled, hnext⟩ :=
        framed_labelOf (t := t) (k := entry.1) h hout (hin.of_find? hfind)
      have hwhole {P : Prop} (hwhole : Whole entry.2) : P := by
        rw [hwhole.table? source] at hinner
        cases hinner
      intro l' hl'
      have hwithin := framed_mergeAt hs depth hlabelled.region hnext (hs.table? hv hinner) l' hl'
      -- what is laid over the inner table stays in the region, so the table here is as it was labelled
      have hkept := hwithin.outside place (fun heq => hplace (heq ▸ hnext)) hplace
      rcases content_labelOf hsize htable entry.1 old with hcontent | hcontent
      · exact ⟨t, hwithin.region, hkept.trans hcontent, mergesEntry_refl hwhole⟩
      · exact ⟨_, hwithin.region, hkept.trans hcontent, mergesEntry_put (.link .table hnext) hwhole⟩
    · exact .ok hput

/-- Entries are laid over a table that is not in the region. -/
theorem mergesWhole_mergeAt (hs : source.Closed) (depth : Nat) (h : Region l U) (hplace : ¬U place)
    (htable : l.content place = .table t) (hin : Labels U (.table t))
    (he : Bounded source.size (.table entries)) (hd : Table.Distinct entries) :
    Yields (fun l' => ∃ t', l'.content place = .table t' ∧ MergesWhole .replace t entries t')
      (mergeAt .replace source (depth + 1) place entries l) := by
  rw [mergeAt_succ]
  induction entries generalizing l t with
  | nil => exact .ok ⟨t, htable, .nil .replace t⟩
  | cons entry rest ih =>
    obtain ⟨hne, hd⟩ := List.pairwise_cons.mp hd
    have hrest : Bounded source.size (.table rest) :=
      .table fun e hmem => he.of_mem (List.mem_cons_of_mem entry hmem)
    rw [List.foldlM_cons]
    refine (mergesEntry_mergeEntry hs depth h hplace htable hin (he.of_mem List.mem_cons_self)).bind ?_
    rintro l₁ ⟨t₁, hregion, hcontent, hfirst⟩
    have hin₁ : Labels U (.table t₁) :=
      .table fun e hmem => (hfirst.values e hmem).elim (fun hold => hin.of_mem hold) id
    intro l' hl'
    obtain ⟨t', hcontent', hwhole⟩ := ih hregion hcontent hin₁ hrest hd l' hl'
    exact ⟨t', hcontent', hwhole.cons hfirst hne⟩

/-- Overlaying shows the whole values of the source, and those of the target elsewhere. -/
theorem mergesWhole_overlayLinked (target source : Linked) (hl : target.1.Closed)
    (ht : Bounded target.1.size (.table target.2)) (hs : source.1.Closed)
    (he : Bounded source.1.size (.table source.2)) (hd : Table.Distinct source.2) :
    Yields (fun r => MergesWhole .replace target.2 source.2 r.2) (overlayLinked target source) := by
  obtain ⟨l, t⟩ := target
  obtain ⟨source, entries⟩ := source
  rw [overlayLinked]
  split
  · refine .ok fun key hwhole => ?_
    show Table.find? (overlay t entries) key = _
    rw [find?_overlay hd]
    cases hv : Table.find? entries key with
    | none => rfl
    | some v =>
      cases Table.find? t key with
      | none => rfl
      | some old => exact congrArg some (overlaid_of_not_table (.inr (hwhole v hv).isTable))
  · have hbox : content (l.push (.table t)) l.size = .table t := by
      rw [content_push, if_pos rfl]
    have hin : Labels (fun label => True ∧ label ≠ l.size) (.table t) :=
      Region.labels_without (labels_all ht) ht
    rw [mergeLinked]
    refine (mergesWhole_mergeAt hs 999 ((region_all hl).without hl (.table t))
      (fun hbox => hbox.2 rfl) hbox hin he hd).bind ?_
    rintro l' ⟨t', hcontent, hwhole⟩
    refine .ok ?_
    show MergesWhole .replace t entries ((l'.table? (.link l.size .table)).getD [])
    rw [Links.table?, hcontent]
    exact hwhole

/-! ## Languages -/

variable {s : Settings}

/-- What a language sees under a key with whole values is its own value, or else the shared one. -/
theorem find?_bindingsFor (hs : s.Closed) {language : String}
    (hd : (s.languageTable language).Distinct)
    (hown : ∀ v, Table.find? (s.languageTable language) key = some v → Whole v)
    (hshared : ∀ v, Table.find? s.shared key = some v → Whole v) :
    Yields (fun t => Table.find? t key =
      (Table.find? (s.languageTable language) key).or (Table.find? s.shared key))
      (s.bindingsFor language) := by
  rw [bindingsFor]
  refine (mergesWhole_overlayLinked (s.links, s.shared) (s.links, s.languageTable language) hs.links
    hs.shared hs.links (hs.languageTable language) hd).bind ?_
  rintro ⟨l, t⟩ hlaid
  refine .ok ?_
  have hfind : Table.find? t key =
      (Table.find? (s.languageTable language) key).or (Table.find? s.shared key) := hlaid key hown
  rw [resolveTable]
  split
  · exact hfind
  · rw [Table.find?_mapValues, hfind]
    -- there are no links in the value, so it stays as it is when links are resolved
    cases hv : (Table.find? (s.languageTable language) key).or (Table.find? s.shared key) with
    | none => rfl
    | some v =>
      have hwhole : Whole v := by
        rcases Option.or_eq_some_iff.mp hv with hv | ⟨-, hv⟩
        · exact hown v hv
        · exact hshared v hv
      exact congrArg some (resolve_of_bounded l hwhole.bounded)

/-- A language sees something, unless tables that hold themselves are merged. -/
theorem bindingsFor_isOk_or (s : Settings) (language : String) :
    (∃ t, s.bindingsFor language = .ok t) ∨
      (s.links ≠ #[] ∧ s.bindingsFor language = .error .endless) := by
  by_cases hlinks : s.links = #[]
  · exact .inl ⟨_, bindingsFor_plain s language hlinks⟩
  · cases hb : s.bindingsFor language with
    | ok t => exact .inl ⟨t, rfl⟩
    | error f =>
      rw [bindingsFor] at hb
      have hfails : FailsWith (· = Fault.endless)
          (overlayLinked (s.links, s.shared) (s.links, s.languageTable language)) := by
        rw [overlayLinked]
        split
        · exact .ok _
        · exact failsWith_mergeLinked _ _ _
      obtain rfl : f = .endless := hfails.bind (fun _ _ => .ok _) f hb
      exact .inr ⟨hlinks, rfl⟩

end BindGen.Settings

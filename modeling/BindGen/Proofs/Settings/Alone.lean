import BindGen.Proofs.Settings.OwnValues
import BindGen.Proofs.Settings.Region

/-!
# Tables that stand alone

A table under a key of settings stands alone if no link leads to it from anywhere else. Then it
gains only what is filled in under its own key, and nothing when other keys are filled. Other
settings do not gain anything either while entries are filled into the table.
-/

namespace BindGen.Settings

open Value Links

variable {U : Nat → Prop} {l l' source : Links} {root others entries inner t : Table Value}
  {key : Scalar} {v : Value} {place : Nat}

/-- Later links with a region that is the same among the labels there were. -/
structure Carries (l : Links) (U : Nat → Prop) (l' : Links) (U' : Nat → Prop) : Prop where
  region : Region l' U'
  same : ∀ label < l.size, (U' label ↔ U label)

private theorem Carries.labels {U' : Nat → Prop} (h : Carries l U l' U') (hv : Labels U v)
    (hb : Bounded l.size v) : Labels U' v :=
  (hv.and hb).imp fun label hlabel => (h.same label hlabel.2).mpr hlabel.1

/-- Nothing has changed under labels outside of the region. -/
def KeepsOutside (U : Nat → Prop) (l l' : Links) : Prop :=
  ∀ label < l.size, ¬U label → l'.content label = l.content label

/-- A table outside of the region is the same later. -/
theorem KeepsOutside.table? (h : KeepsOutside U l l') (hb : Bounded l.size v)
    (hv : ∀ label kind, v = .link label kind → ¬U label) : l'.table? v = l.table? v := by
  cases hb with
  | link kind hlabel =>
    show (l'.content _).table? = (l.content _).table?
    rw [h _ hlabel (hv _ kind rfl)]
  | _ => rfl

/-- All labels are in the region of all labels. -/
theorem labels_all {n : Nat} (hv : Bounded n v) : Labels (fun _ => True) v := hv.imp fun _ _ => trivial

/-- Every label of closed links is a region. -/
theorem region_all (hl : l.Closed) : Region l fun _ => True where
  inside label _ := by
    by_cases hin : label < l.size
    · exact labels_all (hl label hin)
    · rw [content_of_ge (Nat.le_of_not_lt hin)]
      exact .scalar .null
  free _ _ := trivial

private theorem carries_empty : Carries #[] U #[] fun _ => True :=
  ⟨region_all closed_empty, fun label hlabel => absurd hlabel (Nat.not_lt_zero label)⟩

/-- Holding of every key does not tell keys apart. -/
theorem respectsSame_true : RespectsSame fun _ => True := fun _ _ _ _ => trivial

private theorem respectsSame_other (key : Scalar) : RespectsSame fun k => key.same k = false := by
  intro a b hab hb
  rwa [Scalar.same_comm, Scalar.same_congr_left hab, Scalar.same_comm]

/-- A table that is put behind all links for a while is kept out of the region. -/
theorem carries_boxed
    (hf : Framed (fun label => U label ∧ label ≠ l.size) l.size (l.push v) l') :
    Carries l U l' (fun label => U label ∧ label ≠ l.size) ∧ KeepsOutside U l l' := by
  refine ⟨⟨hf.region, fun label hlabel => and_iff_left (Nat.ne_of_lt hlabel)⟩,
    fun label hlabel hout => ?_⟩
  rw [hf.outside label (Nat.ne_of_lt hlabel) fun hin => hout hin.1, content_push,
    if_neg (Nat.ne_of_lt hlabel)]

/-! ## Filling a table of settings -/

/-- Filling keeps the keys of a table pairwise different. -/
theorem distinct_fill (ht : Table.Distinct t) : Table.Distinct (fill t entries) := by
  induction entries generalizing t with
  | nil =>
    rw [fill]
    exact ht
  | cons entry rest ih =>
    obtain ⟨k, v⟩ := entry
    rw [fill]
    split
    · exact ih (Table.distinct_put ht k v)
    · next inner _ => exact ih (Table.distinct_put ht k (fillInto inner v))
    · exact ih ht

/-- Filling plain tables takes whole values that are absent. -/
theorem mergesWhole_fill (hd : Table.Distinct entries) :
    MergesWhole .keep t entries (fill t entries) := by
  intro key hwhole
  rw [find?_fill hd]
  cases hv : Table.find? entries key with
  | none => exact (Clash.settled_none .keep _).symm
  | some v =>
    cases Table.find? t key with
    | none => rfl
    | some old => exact congrArg some (filled_of_not_table (hwhole v hv).isTable)

/-- Where there are links, a table of settings is filled behind all links that there are. -/
theorem fillFrom_boxed (hlinks : ¬(l.isEmpty && source.isEmpty) = true) {p : Progress Links}
    (hp : fillUnder source mergeDepth l.size entries (l.push (.table root)) = p)
    (ht : p.reached.content l.size = .table t) :
    fillFrom (l, root) (source, entries) = ⟨(p.reached, t), p.fault⟩ := by
  subst hp
  rw [fillFrom, if_neg hlinks]
  show Progress.map _ _ = _
  rw [Progress.map, Links.table?, ht]
  rfl

/-- Filling entries into a table of settings, however far this comes: the part of the table that is
in a region stays in one. -/
theorem carries_fillFrom (target source : Linked) (hl : target.1.Closed)
    (ht : Bounded target.1.size (.table target.2)) (hs : source.1.Closed)
    (he : Bounded source.1.size (.table source.2)) (hd : Table.Distinct source.2)
    (h : Region target.1 U) {inside : Scalar → Prop} (hsame : RespectsSame inside)
    (hin : ∀ e ∈ target.2, inside e.1 → Labels U e.2) (hentries : ∀ e ∈ source.2, inside e.1) :
    ∃ U', let p := fillFrom target source
      Carries target.1 U p.reached.1 U' ∧ KeepsOutside U target.1 p.reached.1 ∧
      (∀ e ∈ p.reached.2, inside e.1 → Labels U' e.2) ∧
      (∀ key, Table.find? source.2 key = none →
        Table.find? p.reached.2 key = Table.find? target.2 key) ∧
      (p.fault = none → MergesWhole .keep target.2 source.2 p.reached.2) := by
  have hbounded := (grown_fillFrom target source hl ht hs he).bounded
  obtain ⟨l, root⟩ := target
  obtain ⟨source, entries⟩ := source
  dsimp only at *
  by_cases hempty : (l.isEmpty && source.isEmpty) = true
  · obtain ⟨rfl, rfl⟩ : l = #[] ∧ source = #[] := by simpa using hempty
    refine ⟨fun _ => True, carries_empty, fun label hlabel => absurd hlabel (Nat.not_lt_zero label),
      fun e hmem _ => labels_all (hbounded.of_mem hmem), fun key hnone => ?_,
      fun _ => mergesWhole_fill hd⟩
    show Table.find? (fill root entries) key = _
    rw [find?_fill hd, hnone]
  · have hboxed : content (l.push (.table root)) l.size = .table root := by
      rw [content_push, if_pos rfl]
    have hout : ¬(U l.size ∧ l.size ≠ l.size) := fun hbox => hbox.2 rfl
    have hroot : ∀ e ∈ root, inside e.1 → Labels (fun label => U label ∧ label ≠ l.size) e.2 :=
      fun e hmem hinside => Region.labels_without (hin e hmem hinside) (ht.of_mem hmem)
    obtain ⟨t', hframed, hcontent, htakes, hwhole⟩ := takesEntries_fillUnder hs 999
      (h.without hl (.table root)) hout hboxed hsame hroot hentries he hd
    obtain ⟨hcarries, houtside⟩ := carries_boxed hframed
    rw [fillFrom_boxed hempty rfl hcontent]
    refine ⟨_, hcarries, houtside, fun e hmem hinside => ?_, htakes.others, hwhole⟩
    exact (htakes.values e hmem).elim (fun hold => hroot e hold hinside) id

/-! ## A table under a key -/

/-- The table that stands under a key. -/
def slot (l : Links) (root : Table Value) (key : Scalar) : Option (Table Value) :=
  (Table.find? root key).bind l.table?

/-- The table under a key stands alone: there is a region with everything that other keys, other
settings and the values in the table lead to, and the table is not in it. -/
structure Alone (l : Links) (U : Nat → Prop) (root : Table Value) (key : Scalar)
    (others : Table Value) : Prop where
  region : Region l U
  others : Labels U (.table others)
  rest : ∀ e ∈ root, key.same e.1 = false → Labels U e.2
  values : ∀ t, slot l root key = some t → Labels U (.table t)
  label : ∀ label kind, Table.find? root key = some (.link label kind) → ¬U label

/-- Without links every table stands alone. -/
theorem alone_plain (hroot : Bounded 0 (.table root)) (hothers : Bounded 0 (.table others)) :
    Alone #[] (fun _ => True) root key others where
  region := region_all closed_empty
  others := labels_all hothers
  rest _ hmem _ := labels_all (hroot.of_mem hmem)
  values t ht := by
    obtain ⟨v, hv, ht⟩ := Option.bind_eq_some_iff.mp ht
    exact labels_all (closed_empty.table? (hroot.of_find? hv) ht)
  label label kind hlink := by
    cases hroot.of_find? hlink with
    | link _ hlabel => exact absurd hlabel (Nat.not_lt_zero label)

namespace Alone

variable {U' : Nat → Prop} {root' others' : Table Value}

private theorem bounded_slot (hl : l.Closed) (hroot : Bounded l.size (.table root))
    (ht : slot l root key = some t) : Bounded l.size (.table t) := by
  obtain ⟨v, hv, ht⟩ := Option.bind_eq_some_iff.mp ht
  exact hl.table? (hroot.of_find? hv) ht

/-- The table is as it was, and stands alone, where nothing outside of the region has changed. -/
theorem carry (h : Alone l U root key others) (hl : l.Closed) (hroot : Bounded l.size (.table root))
    (hcarries : Carries l U l' U') (houtside : KeepsOutside U l l')
    (hothers : Labels U' (.table others')) (hfind : Table.find? root' key = Table.find? root key)
    (hrest : ∀ e ∈ root', key.same e.1 = false → Labels U' e.2) :
    Alone l' U' root' key others' ∧ slot l' root' key = slot l root key := by
  have hslot : slot l' root' key = slot l root key := by
    rw [slot, slot, hfind]
    cases hv : Table.find? root key with
    | none => rfl
    | some v =>
      refine houtside.table? (hroot.of_find? hv) fun label kind hlink => ?_
      exact h.label label kind (hlink ▸ hv)
  refine ⟨⟨hcarries.region, hothers, hrest, fun t ht => ?_, fun label kind hlink => ?_⟩, hslot⟩
  · rw [hslot] at ht
    exact hcarries.labels (h.values t ht) (bounded_slot hl hroot ht)
  · rw [hfind] at hlink
    cases hroot.of_find? hlink with
    | link _ hlabel => exact fun hin => h.label label kind hlink ((hcarries.same label hlabel).mp hin)

/-- Only the entry of the key matters for the table, and for other keys what they lead to. -/
theorem of_find? (h : Alone l U root key others)
    (hfind : Table.find? root' key = Table.find? root key)
    (hrest : ∀ e ∈ root', key.same e.1 = false → Labels U e.2) : Alone l U root' key others where
  region := h.region
  others := h.others
  rest := hrest
  values t ht := h.values t (by rwa [slot, hfind] at ht)
  label label kind hlink := h.label label kind (hfind ▸ hlink)

/-- A new table under another key has nothing to do with the table. -/
theorem putNew_other (h : Alone l U root key others) {other : Scalar}
    (hne : other.same key = false) :
    Alone l U (Table.putNew root other (.table [])) key others ∧
      Table.find? (Table.putNew root other (.table [])) key = Table.find? root key := by
  have hfind : Table.find? (Table.putNew root other (.table [])) key = Table.find? root key := by
    rw [find?_putNew, hne, if_neg Bool.false_ne_true]
    cases Table.find? root key <;> rfl
  refine ⟨h.of_find? hfind fun e hmem hkey => ?_, hfind⟩
  rw [Table.putNew] at hmem
  split at hmem
  · exact h.rest e hmem hkey
  · rcases Table.snd_of_mem_put hmem with hnew | hmem
    · rw [hnew]
      exact .empty
    · exact h.rest e hmem hkey

/-- A new table under the key stands alone. -/
theorem putNew_self (h : Alone l U root key others) :
    Alone l U (Table.putNew root key (.table [])) key others := by
  rw [Table.putNew]
  split
  · exact h
  · have hfind : Table.find? (Table.put root key (.table [])) key = some (.table []) := by
      rw [Table.find?_put, if_pos (Scalar.same_refl key)]
    refine ⟨h.region, h.others, fun e hmem hkey => h.rest e (Table.mem_of_mem_put hmem hkey) hkey,
      fun t ht => ?_, fun label kind hlink => ?_⟩
    · rw [slot, hfind] at ht
      obtain rfl : [] = t := Option.some.inj ht
      exact .empty
    · cases hfind.symm.trans hlink

/-- Keys that are the same have the same table. -/
theorem congr {key' : Scalar} (h : Alone l U root key others) (hsame : key.same key' = true) :
    Alone l U root key' others where
  region := h.region
  others := h.others
  rest e hmem hne := h.rest e hmem (by rwa [Scalar.same_congr_left hsame])
  values t ht := h.values t (by rwa [slot, Table.find?_congr hsame])
  label label kind hlink := h.label label kind (by rwa [Table.find?_congr hsame])

/-- Filling other settings leaves the table as it is. -/
theorem fillOthers (h : Alone l U root key others) (hl : l.Closed)
    (hroot : Bounded l.size (.table root)) (hothers : Bounded l.size (.table others))
    (hs : source.Closed) (he : Bounded source.size (.table entries)) (hd : Table.Distinct entries) :
    ∃ U', let t := (fillFrom (l, others) (source, entries)).reached
      Alone t.1 U' root key t.2 ∧ slot t.1 root key = slot l root key := by
  obtain ⟨U', hcarries, houtside, hinside, -, -⟩ := carries_fillFrom (l, others) (source, entries) hl
    hothers hs he hd h.region respectsSame_true (fun e hmem _ => h.others.of_mem hmem)
    fun _ _ => trivial
  refine ⟨U', h.carry hl hroot hcarries houtside (.table fun e hmem => hinside e hmem trivial) rfl ?_⟩
  exact fun e hmem hne => hcarries.labels (h.rest e hmem hne) (hroot.of_mem hmem)

/-- Filling entries under other keys leaves the table as it is. -/
theorem fillRest (h : Alone l U root key others) (hl : l.Closed)
    (hroot : Bounded l.size (.table root)) (hothers : Bounded l.size (.table others))
    (hs : source.Closed) (he : Bounded source.size (.table entries)) (hd : Table.Distinct entries)
    (hne : ∀ e ∈ entries, key.same e.1 = false) :
    ∃ U', let t := (fillFrom (l, root) (source, entries)).reached
      Alone t.1 U' t.2 key others ∧ slot t.1 t.2 key = slot l root key ∧
        Table.find? t.2 key = Table.find? root key := by
  obtain ⟨U', hcarries, houtside, hinside, hfind, -⟩ := carries_fillFrom (l, root) (source, entries)
    hl hroot hs he hd h.region (respectsSame_other key) h.rest hne
  have hkey : Table.find? entries key = none := by
    rw [Table.find?_eq_none_iff]
    intro e hmem
    rw [Scalar.same_comm]
    exact hne e hmem
  obtain ⟨halone, hslot⟩ := h.carry hl hroot hcarries houtside (hcarries.labels h.others hothers)
    (hfind key hkey) hinside
  exact ⟨U', halone, hslot, hfind key hkey⟩

end Alone

/-! ## Filling the table -/

/-- The table under a key has a label of its own, and the table around it has been put behind all
links that there were. -/
structure Opened (l : Links) (U : Nat → Prop) (root : Table Value) (key : Scalar) (t : Table Value)
    (l' : Links) (U' : Nat → Prop) (place : Nat) : Prop where
  carries : Carries l U l' U'
  placed : ¬U' place
  ne : place ≠ l.size
  boxed : ¬U' l.size
  table : l'.content place = .table t
  around : ∃ root' kind, l'.content l.size = .table root' ∧
    Table.find? root' key = some (.link place kind) ∧
    (∀ e ∈ root', key.same e.1 = false → Labels U' e.2)

/-- A table that stands alone can be given a label. -/
theorem Alone.opened (h : Alone l U root key others) (hl : l.Closed)
    (hroot : Bounded l.size (.table root)) {old : Value} (hold : Table.find? root key = some old)
    (ht : l.table? old = some t) :
    let p := labelOf l.size root key old (l.push (.table root))
    ∃ U', Opened l U root key t p.1 U' p.2 := by
  have hrest : ∀ e ∈ root, key.same e.1 = false →
      Labels (fun label => U label ∧ label ≠ l.size) e.2 := fun e hmem hne =>
    Region.labels_without (h.rest e hmem hne) (hroot.of_mem hmem)
  have hbox : content (l.push (.table root)) l.size = .table root := by
    rw [content_push, if_pos rfl]
  have hregion := h.region.without hl (.table root)
  unfold labelOf
  split
  · next inner kind =>
    -- the table has a label, which is not in the region
    cases hroot.of_find? hold with
    | link _ hinner =>
      refine ⟨fun label => U label ∧ label ≠ l.size, ⟨hregion, fun label hlabel => ?_⟩, ?_,
        Nat.ne_of_lt hinner, fun hin => hin.2 rfl, ?_, root, kind, hbox, hold, hrest⟩
      · exact and_iff_left (Nat.ne_of_lt hlabel)
      · exact fun hin => h.label inner kind hold hin.1
      · show content (l.push (.table root)) inner = .table t
        rw [content_push, if_neg (Nat.ne_of_lt hinner)]
        exact table?_eq_some_iff.mp ht
  · next hlink =>
    -- the table is given the label behind the one of the table around it
    have hrow : old = .table t := by
      cases old with
      | link inner kind => exact absurd rfl (hlink inner kind)
      | _ => exact table?_eq_some_iff.mp ht
    have hsize : l.size < (l.push (.table root)).size := by simp
    have hclosed : Links.Closed (l.push (.table root)) := hl.push (hroot.mono (Nat.le_succ _))
    have hout : ¬((U l.size ∧ l.size ≠ l.size) ∧ l.size ≠ (l.push (.table root)).size) :=
      fun hin => hin.1.2 rfl
    refine ⟨_, ⟨(hregion.without hclosed old).setIfInBounds fun hin => absurd hin hout,
      fun label hlabel => ?_⟩, fun hin => hin.2 rfl, Nat.ne_of_gt hsize, hout, ?_,
      Table.put root key (.link (l.push (.table root)).size .table), .table, ?_, ?_, ?_⟩
    · exact (and_iff_left (by omega)).trans (and_iff_left (Nat.ne_of_lt hlabel))
    · rw [content_setIfInBounds, if_neg fun hsame => Nat.ne_of_lt hsize hsame.1, content_push,
        if_pos rfl, hrow]
    · have hbox : l.size < ((l.push (.table root)).push old).size := by
        rw [Array.size_push, Array.size_push]
        omega
      rw [content_setIfInBounds, if_pos ⟨rfl, hbox⟩]
    · rw [Table.find?_put, if_pos (Scalar.same_refl key)]
    · intro e hmem hne
      have hmem := Table.mem_of_mem_put hmem hne
      exact Region.labels_without (hrest e hmem hne)
        (Bounded.mono (hroot.of_mem hmem) (Nat.le_of_lt hsize))

private theorem through_singleton {σ α : Type} (work : σ → α → Progress σ) (a : α) (s : σ) :
    Progress.through work [a] s = work s a := by
  show (work s a).andThen Progress.done = work s a
  obtain ⟨s', fault⟩ := work s a
  cases fault <;> rfl

/-- Filling entries under the key of a table goes on in this table. -/
theorem fillUnder_single (depth : Nat) (htable : l.content place = .table root)
    {old : Value} (hold : Table.find? root key = some old) (ht : l.table? old = some t) :
    fillUnder source (depth + 1) place [(key, .table inner)] l =
      fillUnder source depth (labelOf place root key old l).2 inner
        (labelOf place root key old l).1 := by
  have hroot : (l.table? (.link place .table)).getD [] = root := by
    rw [Links.table?, htable]
    rfl
  have hinner : source.table? (.table inner) = some inner := rfl
  rw [fillUnder_succ, through_singleton, fillEntry, fillStep]
  dsimp only
  rw [hroot, hold]
  dsimp only
  rw [ht, hinner]

/-- Filling entries under the key of the table fills the table, and it still stands alone. -/
theorem Alone.fillSlot (h : Alone l U root key others) (hl : l.Closed)
    (hroot : Bounded l.size (.table root)) (hothers : Bounded l.size (.table others))
    (ht : slot l root key = some t) (hs : source.Closed)
    (he : Bounded source.size (.table inner)) (hd : Table.Distinct inner) :
    ∃ U' t', let p := fillFrom (l, root) (source, [(key, .table inner)])
      Alone p.reached.1 U' p.reached.2 key others ∧ slot p.reached.1 p.reached.2 key = some t' ∧
      (Table.Distinct t → Table.Distinct t') ∧
      (∀ k, Table.find? inner k = none → Table.find? t' k = Table.find? t k) ∧
      (p.fault = none → MergesWhole .keep t inner t') := by
  have hbounded := (grown_fillFrom (l, root) (source, [(key, .table inner)]) hl hroot hs
    (.single key he)).bounded
  obtain ⟨old, hold, htable⟩ := Option.bind_eq_some_iff.mp ht
  by_cases hempty : (l.isEmpty && source.isEmpty) = true
  · obtain ⟨rfl, rfl⟩ : l = #[] ∧ source = #[] := by simpa using hempty
    obtain rfl : old = .table t := by
      cases hroot.of_find? hold with
      | link _ hlabel => exact absurd hlabel (Nat.not_lt_zero _)
      | _ => exact table?_eq_some_iff.mp htable
    have hfind : Table.find? (fill root [(key, .table inner)]) key = some (.table (fill t inner)) := by
      rw [find?_fill (List.pairwise_singleton _ _), Table.find?, if_pos (Scalar.same_refl key), hold]
      exact congrArg some (filled_table t inner)
    refine ⟨fun _ => True, fill t inner, alone_plain hbounded hothers, ?_, distinct_fill,
      fun k hnone => ?_, fun _ => mergesWhole_fill hd⟩
    · show (Table.find? (fill root _) key).bind _ = _
      rw [hfind]
      rfl
    · rw [find?_fill hd, hnone]
  · have hbox : content (l.push (.table root)) l.size = .table root := by
      rw [content_push, if_pos rfl]
    have hpushed : Links.table? (l.push (.table root)) old = some t := by
      cases hroot.of_find? hold with
      | link _ hlabel =>
        show (content (l.push (.table root)) _).table? = some t
        rw [content_push, if_neg (Nat.ne_of_lt hlabel)]
        exact htable
      | _ => exact htable
    have hsingle : fillUnder source mergeDepth l.size [(key, .table inner)] (l.push (.table root)) =
        fillUnder source (998 + 1) (labelOf l.size root key old (l.push (.table root))).2 inner
          (labelOf l.size root key old (l.push (.table root))).1 :=
      fillUnder_single 999 hbox hold hpushed
    obtain ⟨U', hopened⟩ := h.opened hl hroot hold htable
    generalize labelOf l.size root key old (l.push (.table root)) = labelled at hopened hsingle
    obtain ⟨root', kind, haround, hfind, hrest⟩ := hopened.around
    have hvalues : ∀ e ∈ t, True → Labels U' e.2 := fun e hmem _ =>
      (hopened.carries.labels (h.values t ht) (bounded_slot hl hroot ht)).of_mem hmem
    obtain ⟨t', hframed, hcontent, htakes, hwhole⟩ := takesEntries_fillUnder hs 998
      hopened.carries.region hopened.placed hopened.table respectsSame_true hvalues
      (fun _ _ => trivial) he hd
    generalize fillUnder source (998 + 1) labelled.2 inner labelled.1 = p at *
    have hslot : slot p.reached root' key = some t' := by
      rw [slot, hfind, Option.bind_some, Links.table?, hcontent]
      rfl
    rw [fillFrom_boxed hempty hsingle
      ((hframed.outside l.size hopened.ne.symm hopened.boxed).trans haround)]
    refine ⟨U', t', ⟨hframed.region, hopened.carries.labels h.others hothers, hrest, ?_, ?_⟩,
      hslot, htakes.distinct, htakes.others, hwhole⟩
    · intro t'' ht''
      obtain rfl : t' = t'' := Option.some.inj (hslot.symm.trans ht'')
      exact .table fun e hmem => (htakes.values e hmem).elim (fun hold => hvalues e hold trivial) id
    · intro label kind' hlink
      obtain ⟨rfl, -⟩ := Value.link.inj (Option.some.inj (hfind.symm.trans hlink))
      exact hopened.placed

/-! ## Tables that stay alone -/

/-- What stands under a key, if anything, is a table, in which no key stands twice, and this table
stands alone. -/
structure Stands (l : Links) (root : Table Value) (key : Scalar) (others : Table Value) : Prop where
  distinct : ((slot l root key).getD []).Distinct
  table : Table.find? root key ≠ none → slot l root key ≠ none
  alone : ∃ U, Alone l U root key others

/-- A table that is written in its place, without a label, stands alone, and so does one that is yet
to be made. -/
theorem stands_of_isTable (hl : l.Closed) (hroot : Bounded l.size (.table root))
    (hothers : Bounded l.size (.table others)) (hd : ((slot l root key).getD []).Distinct)
    (h : ∀ v, Table.find? root key = some v → v.isTable = true) : Stands l root key others where
  distinct := hd
  table hne := by
    obtain ⟨v, hv⟩ := Option.ne_none_iff_exists'.mp hne
    obtain ⟨t, rfl⟩ := eq_table_of_isTable (h v hv)
    rw [slot, hv]
    exact Option.some_ne_none t
  alone := by
    refine ⟨fun _ => True, region_all hl, labels_all hothers,
      fun e hmem _ => labels_all (hroot.of_mem hmem),
      fun t ht => labels_all (Alone.bounded_slot hl hroot ht), fun label kind hlink => ?_⟩
    cases h _ hlink

namespace Stands

variable {root' others' : Table Value}

/-- The table stands alone where it is as it was. -/
theorem kept (h : Stands l root key others) (halone : Alone l' U root' key others')
    (hfind : Table.find? root' key = Table.find? root key)
    (hslot : slot l' root' key = slot l root key) : Stands l' root' key others' where
  distinct := by
    rw [hslot]
    exact h.distinct
  table hne := by
    rw [hslot]
    exact h.table (hfind ▸ hne)
  alone := ⟨U, halone⟩

/-- A table that stands alone under a key does so under any key that is the same. -/
theorem congr {key' : Scalar} (h : Stands l root key others) (hsame : key.same key' = true) :
    Stands l root key' others := by
  have hslot : slot l root key' = slot l root key := by
    rw [slot, slot, Table.find?_congr hsame]
  obtain ⟨U, halone⟩ := h.alone
  refine ⟨by rw [hslot]; exact h.distinct, fun hne => ?_, U, halone.congr hsame⟩
  rw [hslot]
  exact h.table (by rwa [Table.find?_congr hsame])

/-- A new entry without links in other settings has nothing to do with the table. -/
theorem putNew_others (h : Stands l root key others) (k : Scalar) (hv : Bounded 0 v) :
    Stands l root key (Table.putNew others k v) := by
  obtain ⟨U, halone⟩ := h.alone
  have hnew : Labels U v := hv.imp fun label hlabel => absurd hlabel (Nat.not_lt_zero label)
  exact ⟨h.distinct, h.table, U, { halone with others := halone.others.putNew k hnew }⟩

/-- Filling other settings leaves the table as it is. -/
theorem fillOthers (h : Stands l root key others) (hl : l.Closed)
    (hroot : Bounded l.size (.table root)) (hothers : Bounded l.size (.table others))
    (hs : source.Closed) (he : Bounded source.size (.table entries)) (hd : Table.Distinct entries) :
    let t := (fillFrom (l, others) (source, entries)).reached
    Stands t.1 root key t.2 ∧ slot t.1 root key = slot l root key := by
  obtain ⟨U, halone⟩ := h.alone
  obtain ⟨U', halone', hslot⟩ := halone.fillOthers hl hroot hothers hs he hd
  exact ⟨h.kept halone' rfl hslot, hslot⟩

/-- A new table under another key has nothing to do with the table. -/
theorem putNew_other (h : Stands l root key others) {other : Scalar}
    (hne : other.same key = false) :
    Stands l (Table.putNew root other (.table [])) key others ∧
      slot l (Table.putNew root other (.table [])) key = slot l root key := by
  obtain ⟨U, halone⟩ := h.alone
  obtain ⟨halone', hfind⟩ := halone.putNew_other hne
  have hslot : slot l (Table.putNew root other (.table [])) key = slot l root key := by
    rw [slot, slot, hfind]
  exact ⟨h.kept halone' hfind hslot, hslot⟩

/-- Filling entries under other keys leaves the table as it is. -/
theorem fillRest (h : Stands l root key others) (hl : l.Closed)
    (hroot : Bounded l.size (.table root)) (hothers : Bounded l.size (.table others))
    (hs : source.Closed) (he : Bounded source.size (.table entries)) (hd : Table.Distinct entries)
    (hne : ∀ e ∈ entries, key.same e.1 = false) :
    let t := (fillFrom (l, root) (source, entries)).reached
    Stands t.1 t.2 key others ∧ slot t.1 t.2 key = slot l root key := by
  obtain ⟨U, halone⟩ := h.alone
  obtain ⟨U', halone', hslot, hfind⟩ := halone.fillRest hl hroot hothers hs he hd hne
  exact ⟨h.kept halone' hfind hslot, hslot⟩

/-- A new table is put under the key if nothing stands there. -/
theorem putNew_self (h : Stands l root key others) :
    Stands l (Table.putNew root key (.table [])) key others ∧
      slot l (Table.putNew root key (.table [])) key = some ((slot l root key).getD []) := by
  have hslot : slot l (Table.putNew root key (.table [])) key =
      some ((slot l root key).getD []) := by
    cases hfind : Table.find? root key with
    | none =>
      rw [slot, slot, find?_putNew, hfind, if_pos (Scalar.same_refl key)]
      rfl
    | some v =>
      obtain ⟨t, ht⟩ := Option.ne_none_iff_exists'.mp
        (h.table (by rw [hfind]; exact Option.some_ne_none v))
      rw [slot, find?_putNew, hfind, ht]
      rw [slot, hfind] at ht
      exact ht
  obtain ⟨U, halone⟩ := h.alone
  refine ⟨⟨?_, fun _ => ?_, U, halone.putNew_self⟩, hslot⟩
  · rw [hslot]
    exact h.distinct
  · rw [hslot]
    exact Option.some_ne_none _

/-- Filling entries under the key fills the table. -/
theorem fillSlot (h : Stands l root key others) (hl : l.Closed)
    (hroot : Bounded l.size (.table root)) (hothers : Bounded l.size (.table others))
    (ht : slot l root key = some t) (hs : source.Closed)
    (he : Bounded source.size (.table inner)) (hd : Table.Distinct inner) :
    let p := fillFrom (l, root) (source, [(key, .table inner)])
    Stands p.reached.1 p.reached.2 key others ∧
      ∃ t', slot p.reached.1 p.reached.2 key = some t' ∧
        (∀ k, Table.find? inner k = none → Table.find? t' k = Table.find? t k) ∧
        (p.fault = none → MergesWhole .keep t inner t') := by
  obtain ⟨U, halone⟩ := h.alone
  obtain ⟨U', t', halone', hslot, hdistinct, hothers, hwhole⟩ :=
    halone.fillSlot hl hroot hothers ht hs he hd
  have htable : t.Distinct := by
    have hdistinct := h.distinct
    rw [ht] at hdistinct
    exact hdistinct
  refine ⟨⟨?_, fun _ => ?_, U', halone'⟩, t', hslot, hothers, hwhole⟩
  · rw [hslot]
    exact hdistinct htable
  · rw [hslot]
    exact Option.some_ne_none t'

end Stands
end BindGen.Settings

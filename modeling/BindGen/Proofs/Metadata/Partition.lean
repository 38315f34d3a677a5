import BindGen.Proofs.Metadata.Grouping

/-!
# Groups as a partition

Items can be grouped exactly if each crate declares one namespace, each item belongs to a crate that
declares one, and no two items are the same. The groups are then a partition of the items: one group
for each crate that is declared, in the order of the names of the crates, with the items of the
crate as they came. If items cannot be grouped, the error names an item or a crate that is in the
way.
-/

namespace BindGen

namespace Grouping

/-- A namespace is declared by one of the items. -/
def Declared (items : List Item) (d : NamespaceDecl) : Prop :=
  ∃ item ∈ items, declaredBy item = .ok (some d)

/-- Items that can be grouped: each crate declares one namespace, each item belongs to a crate that
declares one, and the items are different. -/
structure Partitionable (items : List Item) : Prop where
  oneNamespace : OneNamespace items
  declared : ∀ item ∈ items, isMember item = true →
    ∃ d, Declared items d ∧ item.crateName = .ok d.crateName
  different : Different items

/-- Groups that are a partition of items by crates. -/
structure Partitions (items : List Item) (gs : List Group) : Prop where
  ordered : ∃ crates : List String, gs.map Group.crateName = crates.map (fun s => Value.text s) ∧
    crates.Pairwise (· < ·)
  declared : ∀ d, (∃ g ∈ gs, g.declared = d) ↔ Declared items d
  members : ∀ g ∈ gs, ∀ crate : String, g.crateName = .text crate →
    g.items = items.filter (belongsTo (.text crate))
  exhaustive : (gs.flatMap (·.items)).Perm (items.filter isMember)

/-- What an error says of the items is so. -/
def Justified (items : List Item) : GroupingError → Prop
  | .twoNamespaces crate first second =>
    Declared items ⟨crate, first⟩ ∧ Declared items ⟨crate, second⟩ ∧ first ≠ second
  | .unknownNamespace kind described crate =>
    ∃ item ∈ items, isMember item = true ∧ item.kind = kind ∧ item.described = described ∧
      item.crateName = .ok crate ∧ ∀ d, Declared items d → d.crateName ≠ crate
  | .duplicate kind described =>
    ∃ a item, [a, item].Sublist (items.filter isMember) ∧ a.same item = true ∧
      item.kind = kind ∧ item.described = described
  | .fault _ => False

variable {items : List Item} {t : Table NamespaceDecl} {m : Table (List Item)}

/-! ## The groups -/

namespace Registers

private theorem find?_eq_some_iff (h : Registers t items) {crate : Scalar} {d : NamespaceDecl} :
    Table.find? t crate = some d ↔ Declared items d ∧ d.crateName = .scalar crate := by
  rw [h.find?_iff]
  constructor
  · rintro ⟨item, hmem, hd, hcrate⟩
    exact ⟨⟨item, hmem, hd⟩, hcrate⟩
  · rintro ⟨⟨item, hmem, hd⟩, hcrate⟩
    exact ⟨item, hmem, hd, hcrate⟩

private theorem exists_crate (h : Registers t items) {d : NamespaceDecl} (hd : Declared items d) :
    ∃ s : String, d.crateName = .text s ∧ Table.find? t (.text s) = some d := by
  obtain ⟨item, hmem, hdecl⟩ := hd
  have ht := typed_of_declaredBy (h.addressed item hmem) hdecl
  obtain ⟨s, hs⟩ := Value.isText_iff.mp (Bool.and_eq_true_iff.mp ht).1
  exact ⟨s, hs, h.find?_eq_some_iff.mpr ⟨⟨item, hmem, hdecl⟩, hs⟩⟩

/-- Items can be placed exactly if they belong to crates that declare namespaces and are
different. -/
theorem placeable_iff (h : Registers t items) : Placeable t items ↔
    (∀ item ∈ items, isMember item = true →
      ∃ d, Declared items d ∧ item.crateName = .ok d.crateName) ∧ Different items := by
  constructor
  · intro hp
    refine ⟨fun item hmem hm => ?_, hp.different⟩
    obtain ⟨s, hc⟩ := crateName_of_isAddressed (h.addressed item hmem)
    have hhas := hp.known item hmem _ ((belongsTo_iff hm hc _).mpr rfl)
    obtain ⟨d, hd⟩ := Option.isSome_iff_exists.mp hhas
    obtain ⟨hdeclared, hcrate⟩ := h.find?_eq_some_iff.mp hd
    refine ⟨d, hdeclared, ?_⟩
    rw [hc, hcrate]
  · rintro ⟨hdeclared, hdifferent⟩
    refine ⟨fun item hmem crate hb => ?_, hdifferent⟩
    have hm : isMember item = true := (Bool.and_eq_true_iff.mp hb).1
    obtain ⟨d, hd, hcrate⟩ := hdeclared item hmem hm
    obtain ⟨s, hs, hfound⟩ := h.exists_crate hd
    rw [hs] at hcrate
    rw [(belongsTo_iff hm hcrate crate).mp hb, Table.has, hfound]
    rfl

end Registers

/-- The groups that a table of namespaces and a table of placed items lead to. -/
def groupsOf (t : Table NamespaceDecl) (m : Table (List Item)) : List Group :=
  (sortOn Prod.fst t).map fun e => ⟨e.2, (Table.find? m e.1).getD []⟩

private theorem groups_eq (h : Registers t items) (ht : namespaces items = .ok t)
    (hm : items.foldlM place (Table.mapValues (fun _ => []) t) = .ok m) :
    groups items = .ok (groupsOf t m) := by
  rw [groups, ht, ok_bind, hm, ok_bind, sortByKey_of_words h.textKeyed.worded]
  rfl

/-- Items that satisfy one of several conditions, no two of which hold together, come apart into
those that satisfy each. -/
theorem flatMap_filter_perm {α κ : Type} {p : κ → α → Bool} {ks : List κ} (l : List α)
    (h : ks.Pairwise fun k k' => ∀ a, p k a = true → p k' a = false) :
    (ks.flatMap fun k => l.filter (p k)).Perm (l.filter fun a => ks.any (p · a)) := by
  induction ks with
  | nil => simp
  | cons k ks ih =>
    obtain ⟨hhead, htail⟩ := List.pairwise_cons.mp h
    let rest (a : α) : Bool := ks.any (p · a)
    have hrest (a : α) (ha : p k a = true) : rest a = false := by
      simpa [rest] using fun k' hk' => hhead k' hk' a ha
    have hsplit := List.filter_append_perm (p k) (l.filter fun a => p k a || rest a)
    have hfirst : (l.filter fun a => p k a || rest a).filter (p k) = l.filter (p k) := by
      rw [List.filter_filter]
      exact List.filter_congr fun a _ => by cases p k a <;> simp
    have hsecond : ((l.filter fun a => p k a || rest a).filter fun a => !p k a) =
        l.filter rest := by
      rw [List.filter_filter]
      refine List.filter_congr fun a _ => ?_
      cases hp : p k a with
      | true => simp [hrest a hp]
      | false => simp
    rw [hfirst, hsecond] at hsplit
    exact ((ih htail).append_left (l.filter (p k))).trans hsplit

/-- No item belongs to two crates. -/
theorem belongsTo_unique {crate crate' : Scalar} {item : Item} (h : belongsTo crate item = true)
    (h' : belongsTo crate' item = true) : crate = crate' := by
  unfold belongsTo at h h'
  split at h
  · next v hv =>
    rw [hv] at h'
    simp only [Bool.and_eq_true, decide_eq_true_eq] at h h'
    exact Option.some.inj (h.2.symm.trans h'.2)
  · simp at h

namespace Places

private theorem find?_sorted (h : Registers t items) :
    ∀ e ∈ sortOn Prod.fst t, Table.find? t e.1 = some e.2 := by
  intro e he
  have hmem := (sortOn_perm h.textKeyed.worded).mem_iff.mp he
  exact Table.find?_of_mem h.distinct hmem (Scalar.same_refl _)

-- Each group has the items of its crate.
private theorem items_sorted (h : Registers t items) (hm : Places t m items) :
    ∀ e ∈ sortOn Prod.fst t,
      (Table.find? m e.1).getD [] = items.filter (belongsTo e.1) := by
  intro e he
  rw [hm.find?, find?_sorted h e he]
  rfl

/-- The groups of placed items have each item once. -/
theorem flatMap_groupsOf (hm : Places t m items) (h : Registers t items) :
    ((groupsOf t m).flatMap (·.items)).Perm (items.filter isMember) := by
  have hperm := sortOn_perm h.textKeyed.worded
  have hgroups : (groupsOf t m).flatMap (·.items) =
      (sortOn Prod.fst t).flatMap fun e => items.filter (belongsTo e.1) := by
    rw [groupsOf, List.flatMap_map]
    exact List.flatMap_congr (items_sorted h hm)
  have hall : items.filter (fun a => (sortOn Prod.fst t).any fun e => belongsTo e.1 a) =
      items.filter isMember := by
    refine List.filter_congr fun item hmem => Bool.eq_iff_iff.mpr ?_
    rw [List.any_eq_true]
    constructor
    · rintro ⟨e, -, hb⟩
      exact (Bool.and_eq_true_iff.mp hb).1
    · intro hmember
      obtain ⟨s, hc⟩ := crateName_of_isAddressed (h.addressed item hmem)
      have hb := (belongsTo_iff hmember hc _).mpr rfl
      obtain ⟨d, hd⟩ := Option.isSome_iff_exists.mp (hm.placeable.known item hmem _ hb)
      obtain ⟨k, hkey, hsame⟩ := Table.mem_of_find? hd
      rw [Scalar.eq_text_of_same hsame] at hkey
      exact ⟨_, hperm.mem_iff.mpr hkey, hb⟩
  rw [hgroups, ← hall]
  refine flatMap_filter_perm items ((h.distinct.perm hperm.symm).imp fun {e e'} hne a ha => ?_)
  rw [← Bool.not_eq_true]
  intro ha'
  rw [belongsTo_unique ha ha', Scalar.same_refl] at hne
  cases hne

/-- The groups of placed items are a partition of the items. -/
theorem partitions_groupsOf (hm : Places t m items) (h : Registers t items) :
    Partitions items (groupsOf t m) := by
  have hperm := sortOn_perm h.textKeyed.worded
  have hentry : ∀ e ∈ sortOn Prod.fst t, Declared items e.2 ∧ e.2.crateName = .scalar e.1 :=
    fun e he => h.find?_eq_some_iff.mp (find?_sorted h e he)
  refine ⟨?_, fun d => ?_, fun g hg crate hcrate => ?_, hm.flatMap_groupsOf h⟩
  · obtain ⟨crates, hcrates⟩ := Table.TextKeyed.exists_keys fun e he =>
      h.textKeyed e (hperm.mem_iff.mp he)
    have hnames : crates.map (fun s => Value.text s) =
        (Table.keys (sortOn Prod.fst t)).map Value.scalar := by
      rw [hcrates, List.map_map]
      rfl
    have hlt := Table.pairwise_lt_keys_sortOn h.distinct h.textKeyed.worded
    rw [hcrates, List.pairwise_map] at hlt
    refine ⟨crates, ?_, hlt.imp (Scalar.lt_text_iff _ _).mp⟩
    rw [hnames, Table.keys, groupsOf, List.map_map, List.map_map]
    exact List.map_congr_left fun e he => (hentry e he).2
  · constructor
    · rintro ⟨g, hg, rfl⟩
      obtain ⟨e, he, rfl⟩ := List.mem_map.mp hg
      exact (hentry e he).1
    · intro hd
      obtain ⟨s, -, hs⟩ := h.exists_crate hd
      obtain ⟨k, hmem, -⟩ := Table.mem_of_find? hs
      exact ⟨_, List.mem_map_of_mem (hperm.mem_iff.mpr hmem), rfl⟩
  · obtain ⟨e, he, rfl⟩ := List.mem_map.mp hg
    have hkey := (hentry e he).2
    change e.2.crateName = .text crate at hcrate
    rw [hcrate] at hkey
    rw [Value.scalar.inj hkey]
    exact items_sorted h hm e he

end Places

/-! ## The errors -/

private theorem Declared.mono {items' : List Item} {d : NamespaceDecl} (h : Declared items d)
    (hs : items ⊆ items') : Declared items' d := by
  obtain ⟨item, hmem, hd⟩ := h
  exact ⟨item, hs hmem, hd⟩

/-- A namespace is refused because the crate has declared another one. -/
theorem Registers.justified {done : List Item} {item : Item} {e : GroupingError}
    (h : Registers t done) (hi : item.isAddressed = true) (hsub : done ++ [item] ⊆ items)
    (he : Grouping.declare t item = .error e) : Justified items e := by
  rcases declaredBy_of_isAddressed hi with hn | ⟨d, hd, ht⟩
  · rw [declare_none hn] at he
    cases he
  · obtain ⟨hcrate, hname⟩ := Bool.and_eq_true_iff.mp ht
    obtain ⟨s, hs⟩ := Value.isText_iff.mp hcrate
    rw [declare_some hd hs] at he
    split at he
    · next earlier hearlier =>
      split at he
      · cases he
      · next hdiffer =>
        obtain rfl := Except.error.inj he
        obtain ⟨hdeclared, hkey⟩ := h.find?_eq_some_iff.mp hearlier
        refine ⟨?_, ⟨item, hsub (by simp), hd⟩, fun heq => hdiffer ?_⟩
        · have hcrates : d.crateName = earlier.crateName := hs.trans hkey.symm
          rw [hcrates]
          exact hdeclared.mono fun a hmem => hsub (List.mem_append_left _ hmem)
        · rw [heq]
          exact (Value.equals_iff_of_isText hname hname).mpr rfl
    · cases he

/-- An item is refused because its crate declares no namespace or because it has occurred. -/
theorem Places.justified {done : List Item} {item : Item} {e : GroupingError}
    (hm : Places t m done) (h : Registers t items) (hsub : (done ++ [item]).Sublist items)
    (he : Grouping.place m item = .error e) : Justified items e := by
  have hmem : item ∈ items := hsub.subset (by simp)
  obtain ⟨s, hc⟩ := crateName_of_isAddressed (h.addressed item hmem)
  cases hmember : isMember item with
  | false =>
    cases item with
    | namespaceDecl d => exact nomatch he
    | _ => cases hmember
  | true =>
    rw [place_member hmember hc, hm.find?] at he
    cases ht : Table.find? t (.text s) with
    | none =>
      rw [ht] at he
      obtain rfl := Except.error.inj he
      refine ⟨item, hmem, hmember, rfl, rfl, hc, fun d hd hcrate => ?_⟩
      rw [h.find?_eq_some_iff.mpr ⟨hd, hcrate⟩] at ht
      cases ht
    | some d =>
      rw [ht, Option.map_some] at he
      dsimp only at he
      split at he
      · next hany =>
        obtain rfl := Except.error.inj he
        obtain ⟨a, ha, hsame⟩ := List.any_eq_true.mp hany
        obtain ⟨hdone, hb⟩ := List.mem_filter.mp ha
        have hboth : ([a] ++ [item]).Sublist (done.filter isMember ++ [item].filter isMember) := by
          apply List.Sublist.append
          · exact List.singleton_sublist.mpr
              (List.mem_filter.mpr ⟨hdone, (Bool.and_eq_true_iff.mp hb).1⟩)
          · rw [List.filter_cons, if_pos hmember]
            exact .refl _
        rw [← List.filter_append] at hboth
        exact ⟨a, item, hboth.trans (hsub.filter isMember), hsame, rfl, rfl⟩
      · cases he

/-! ## When items can be grouped -/

/-- Items are refused, with a reason, because they cannot be grouped, or they are registered, placed
and grouped. -/
theorem groups_cases (ha : ∀ item ∈ items, item.isAddressed = true) :
    (∃ e, groups items = .error e ∧ ¬Partitionable items ∧ Justified items e) ∨
      ∃ t m, Registers t items ∧ Places t m items ∧ groups items = .ok (groupsOf t m) := by
  obtain ⟨hok, hregisters⟩ := namespaces_spec ha
  cases ht : namespaces items with
  | error e =>
    left
    refine ⟨e, ?_, fun h => ?_, ?_⟩
    · rw [groups, ht]
      rfl
    · obtain ⟨t, ht'⟩ := hok.mpr h.oneNamespace
      rw [ht'] at ht
      cases ht
    · obtain ⟨done, item, rest, t, rfl, hdone, hitem⟩ := exists_of_foldlM_eq_error ht
      have hreg := (namespaces_spec fun a hmem => ha a (by simp [hmem])).2 t hdone
      exact hreg.justified (ha item (by simp)) (by simp) hitem
  | ok t =>
    have hreg := hregisters t ht
    obtain ⟨hokm, hplaces⟩ := foldlM_place_spec (t := t) ha
    cases hm : items.foldlM place (Table.mapValues (fun _ => []) t) with
    | error e =>
      left
      refine ⟨e, ?_, fun h => ?_, ?_⟩
      · rw [groups, ht, ok_bind, hm]
        rfl
      · obtain ⟨m, hm'⟩ := hokm.mpr (hreg.placeable_iff.mpr ⟨h.declared, h.different⟩)
        rw [hm'] at hm
        cases hm
      · obtain ⟨done, item, rest, m, rfl, hdone, hitem⟩ := exists_of_foldlM_eq_error hm
        have hplaced := (foldlM_place_spec fun a hmem => ha a (by simp [hmem])).2 m hdone
        refine hplaced.justified hreg ?_ hitem
        exact (List.Sublist.refl done).append (List.singleton_sublist.mpr List.mem_cons_self)
    | ok m => exact .inr ⟨t, m, hreg, hplaces m hm, groups_eq hreg ht hm⟩

/-- Groups of addressed items partition them. -/
theorem partitions_of_groups {gs : List Group} (ha : ∀ item ∈ items, item.isAddressed = true)
    (h : groups items = .ok gs) : Partitions items gs := by
  obtain ⟨e, he, -⟩ | ⟨t, m, hreg, hplaced, hgroups⟩ := groups_cases ha
  · rw [he] at h
    cases h
  · rw [hgroups] at h
    obtain rfl := Except.ok.inj h
    exact hplaced.partitions_groupsOf hreg

/-- Items whose crates and namespaces are texts can be grouped exactly if each crate declares one
namespace, each item belongs to a crate that declares one, and no two items are the same. The groups
are then a partition of the items by crates; and an error is always one of grouping that says what
is in the way. -/
theorem groups_spec (ha : ∀ item ∈ items, item.isAddressed = true) :
    ((∃ gs, groups items = .ok gs) ↔ Partitionable items) ∧
      (∀ gs, groups items = .ok gs → Partitions items gs) ∧
      ∀ e, groups items = .error e → Justified items e := by
  refine ⟨?_, fun gs hgs => partitions_of_groups ha hgs, fun e he => ?_⟩
  · obtain ⟨e, he, hnot, -⟩ | ⟨t, m, hreg, hplaced, hgroups⟩ := groups_cases ha
    · simp [he, hnot]
    · obtain ⟨hdeclared, hdifferent⟩ := hreg.placeable_iff.mp hplaced.placeable
      simp only [hgroups, Except.ok.injEq, exists_eq', true_iff]
      exact ⟨hreg.oneNamespace, hdeclared, hdifferent⟩
  · obtain ⟨e', he', -, hjustified⟩ | ⟨t, m, -, -, hgroups⟩ := groups_cases ha
    · rw [he'] at he
      obtain rfl := Except.error.inj he
      exact hjustified
    · rw [hgroups] at he
      cases he

-- Items of two crates, one of which declares its namespace behind an item, and twice.
private def mixed : List Item :=
  [.object ⟨"geo::shapes", "Shape", .null⟩, .namespaceDecl ⟨"geo", "geo"⟩,
    .udlFile ⟨"app", "app", "app"⟩,
    .function ⟨"app::api", "run", [], .null, .null, .bool false, .null⟩,
    .namespaceDecl ⟨"geo", "geo"⟩]

-- What the crates of these items declare, as it is found.
private def mixedNamespaces : Table NamespaceDecl :=
  [(.text "geo", ⟨"geo", "geo"⟩), (.text "app", ⟨"app", "app"⟩)]

/-- Items that come in any order are grouped by crates. -/
theorem groups_spec_mixed : ∃ app geo, groups mixed = .ok [app, geo] ∧
    app.declared = ⟨"app", "app"⟩ ∧ geo.declared = ⟨"geo", "geo"⟩ ∧
    Partitions mixed [app, geo] ∧ Partitionable mixed := by
  have ha : ∀ item ∈ mixed, item.isAddressed = true := by decide
  obtain ⟨hiff, hpartitions, -⟩ := groups_spec ha
  have ht : namespaces mixed = .ok mixedNamespaces := rfl
  have hreg := (namespaces_spec ha).2 _ ht
  have hsorted : sortOn Prod.fst mixedNamespaces =
      [(.text "app", ⟨"app", "app"⟩), (.text "geo", ⟨"geo", "geo"⟩)] :=
    Table.sortOn_eq_of_pairwise hreg.distinct hreg.textKeyed.worded (.swap _ _ _) (by decide)
  have hgroups := groups_eq hreg ht rfl
  rw [groupsOf, hsorted] at hgroups
  exact ⟨_, _, hgroups, rfl, rfl, hpartitions _ hgroups, hiff.mp ⟨_, hgroups⟩⟩

end Grouping
end BindGen

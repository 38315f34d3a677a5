import BindGen.Metadata.Group
import BindGen.Proofs.Metadata.Typed
import BindGen.Proofs.Run.Corresponds
import BindGen.Proofs.Run.Fold
import BindGen.Proofs.Value.Order

/-!
# Grouping in any order

The namespaces of a list of items are a look-up from crates to what items declare for them, and
items can be placed exactly if each belongs to a known crate and none occurs twice. All that is
asked of the items is that the names of crates and namespaces are texts. For typed items the order
does not matter: lists that are permutations of each other can be grouped together, and then give
the same crates in the same order with permuted items.
-/

namespace BindGen

/-- Typed groups of one crate with the same items, perhaps in another order. -/
structure Group.Rearranged (g h : Group) : Prop where
  declared : g.declared = h.declared
  items : g.items.Perm h.items
  typed : g.isTyped = true

/-- Rearrangement of groups goes both ways. -/
theorem Group.Rearranged.symm {g g' : Group} (h : g.Rearranged g') : g'.Rearranged g where
  declared := h.declared.symm
  items := h.items.symm
  typed := by
    rw [Group.isTyped_iff, ← h.declared]
    obtain ⟨hd, hi⟩ := Group.isTyped_iff.mp h.typed
    exact ⟨hd, fun a ha => hi a (h.items.mem_iff.mpr ha)⟩

/-- Whether the crate of an item is a text, and so is the namespace that it may declare. -/
def Item.isAddressed : Item → Bool
  | namespaceDecl d => d.isTyped
  | udlFile d => d.modulePath.isText && d.namespaceName.isText
  | item => (item.modulePath?.getD .null).isText

/-- A typed item names its crate by a text. -/
theorem Item.isAddressed_of_isTyped {item : Item} (h : item.isTyped = true) :
    item.isAddressed = true := by
  cases item <;>
    simp only [isTyped, UdlFileDecl.isTyped, FunctionDecl.isTyped, ConstructorDecl.isTyped,
      MethodDecl.isTyped, RecordDecl.isTyped, EnumDecl.isTyped, ObjectDecl.isTyped,
      CallbackInterfaceDecl.isTyped, CustomTypeDecl.isTyped, Bool.and_eq_true] at h <;>
    simp [isAddressed, modulePath?, h]

namespace Grouping

variable {items done : List Item} {item : Item}

private theorem crateOfPath_of_isText {v : Value} (h : v.isText = true) :
    ∃ s : String, crateOfPath v = .ok (.text s) := by
  obtain ⟨s, rfl⟩ := Value.isText_iff.mp h
  exact ⟨_, rfl⟩

private theorem isText_modulePath (h : item.isAddressed = true) {v : Value}
    (hv : item.modulePath? = some v) : v.isText = true := by
  cases item with
  | namespaceDecl d => cases hv
  | udlFile d =>
    cases hv
    exact (Bool.and_eq_true_iff.mp h).1
  | _ =>
    cases hv
    exact h

/-- The crate of an addressed item is a text. -/
theorem crateName_of_isAddressed (h : item.isAddressed = true) :
    ∃ s : String, item.crateName = .ok (.text s) := by
  have hpath {v : Value} (hv : item.modulePath? = some v) : ∃ s : String,
      crateOfPath v = .ok (.text s) := crateOfPath_of_isText (isText_modulePath h hv)
  cases item with
  | namespaceDecl d =>
    obtain ⟨s, hs⟩ := Value.isText_iff.mp (Bool.and_eq_true_iff.mp h).1
    exact ⟨s, congrArg Except.ok hs⟩
  | _ => exact hpath rfl

/-- An addressed item declares a typed namespace or none. -/
theorem declaredBy_of_isAddressed (h : item.isAddressed = true) :
    declaredBy item = .ok none ∨ ∃ d, declaredBy item = .ok (some d) ∧ d.isTyped = true := by
  cases item with
  | namespaceDecl d => exact Or.inr ⟨d, rfl, h⟩
  | udlFile d =>
    obtain ⟨hpath, hname⟩ := Bool.and_eq_true_iff.mp h
    obtain ⟨s, hs⟩ := crateOfPath_of_isText hpath
    refine Or.inr ⟨⟨.text s, d.namespaceName⟩, ?_, ?_⟩
    · rw [declaredBy, hs]
      rfl
    · rw [NamespaceDecl.isTyped, hname]
      rfl
  | _ => exact Or.inl rfl

/-- Items that declare namespaces for one crate declare one namespace. -/
def OneNamespace (items : List Item) : Prop :=
  ∀ a ∈ items, ∀ b ∈ items, ∀ d e, declaredBy a = .ok (some d) → declaredBy b = .ok (some e) →
    d.crateName = e.crateName → d = e

/-- A table has, under each crate, the namespace that addressed items declare for it. -/
structure Registers (t : Table NamespaceDecl) (items : List Item) : Prop where
  addressed : ∀ item ∈ items, item.isAddressed = true
  distinct : t.Distinct
  find?_iff : ∀ key d, Table.find? t key = some d ↔
    ∃ item ∈ items, declaredBy item = .ok (some d) ∧ d.crateName = .scalar key

variable {t t' : Table NamespaceDecl} {d : NamespaceDecl}

private theorem addressed_snoc (h : ∀ a ∈ done, a.isAddressed = true)
    (hi : item.isAddressed = true) : ∀ a ∈ done ++ [item], a.isAddressed = true := by
  intro a ha
  rcases List.mem_append.mp ha with ha | ha
  · exact h a ha
  · rw [List.mem_singleton.mp ha]
    exact hi

/-- The namespace that an addressed item declares is typed. -/
theorem typed_of_declaredBy (hi : item.isAddressed = true)
    (h : declaredBy item = .ok (some d)) : d.isTyped = true := by
  rcases declaredBy_of_isAddressed hi with hn | ⟨e, he, ht⟩
  · rw [hn] at h
    cases h
  · rw [he] at h
    cases h
    exact ht

private theorem crateName_text (h : d.isTyped = true) : ∃ s : String, d.crateName = .text s := by
  rw [NamespaceDecl.isTyped, Bool.and_eq_true] at h
  exact Value.isText_iff.mp h.1

/-- An item that declares no namespace leaves the table of them alone. -/
theorem declare_none (h : declaredBy item = .ok none) : declare t item = .ok t := by
  rw [declare, h]
  rfl

/-- A namespace is filed under its crate, or conflicts with another one there. -/
theorem declare_some {s : String} (h : declaredBy item = .ok (some d))
    (hc : d.crateName = .text s) :
    declare t item =
      match Table.find? t (.text s) with
      | some earlier =>
        if earlier.name.equals d.name then .ok (Table.put t (.text s) d)
        else .error (.twoNamespaces d.crateName earlier.name d.name)
      | none => .ok (Table.put t (.text s) d) := by
  obtain ⟨c, n⟩ := d
  obtain rfl : c = .text s := hc
  rw [declare, h]
  rfl

namespace Registers

private theorem nil : Registers [] [] where
  addressed := by simp
  distinct := Table.distinct_nil
  find?_iff := by simp

/-- A table that registers the namespaces of items has texts as its keys. -/
theorem textKeyed (h : Registers t items) : t.TextKeyed := by
  intro e he
  obtain ⟨a, ha, hd, hkey⟩ :=
    (h.find?_iff e.1 e.2).mp (Table.find?_of_mem h.distinct he (Scalar.same_refl _))
  obtain ⟨s, hs⟩ := crateName_text (typed_of_declaredBy (h.addressed a ha) hd)
  rw [hs] at hkey
  exact ⟨s, (Value.scalar.inj hkey).symm⟩

/-- Where a table registers the namespaces of items, no crate has two of them. -/
theorem oneNamespace (h : Registers t items) : OneNamespace items := by
  intro a ha b hb d e hd he hcrate
  obtain ⟨s, hs⟩ := crateName_text (typed_of_declaredBy (h.addressed a ha) hd)
  have hfd := (h.find?_iff (.text s) d).mpr ⟨a, ha, hd, hs⟩
  have hfe := (h.find?_iff (.text s) e).mpr ⟨b, hb, he, hcrate ▸ hs⟩
  rw [hfd] at hfe
  exact Option.some.inj hfe

private theorem put (h : Registers t done) (hi : item.isAddressed = true) {s : String}
    (hd : declaredBy item = .ok (some d)) (hc : d.crateName = .text s)
    (hone : OneNamespace (done ++ [item])) :
    Registers (Table.put t (.text s) d) (done ++ [item]) where
  addressed := addressed_snoc h.addressed hi
  distinct := Table.distinct_put h.distinct _ _
  find?_iff key e := by
    rw [Table.find?_put]
    split
    · next hk =>
      obtain rfl := Scalar.eq_text_of_same (Scalar.same_symm hk)
      constructor
      · intro he
        obtain rfl := Option.some.inj he
        exact ⟨item, by simp, hd, hc⟩
      · rintro ⟨a, ha, he, hkey⟩
        rw [hone item (by simp) a ha d e hd he (hc.trans hkey.symm)]
    · next hk =>
      rw [h.find?_iff]
      constructor
      · rintro ⟨a, ha, he⟩
        exact ⟨a, List.mem_append_left _ ha, he⟩
      · rintro ⟨a, ha, he, hkey⟩
        rcases List.mem_append.mp ha with ha | ha
        · exact ⟨a, ha, he, hkey⟩
        · obtain rfl := List.mem_singleton.mp ha
          rw [hd] at he
          obtain rfl : d = e := Option.some.inj (Except.ok.inj he)
          rw [hc] at hkey
          rw [← Value.scalar.inj hkey, Scalar.same_refl] at hk
          exact absurd rfl hk

private theorem oneNamespace_snoc_iff (h : Registers t done) {s : String}
    (hd : declaredBy item = .ok (some d)) (hc : d.crateName = .text s) :
    OneNamespace (done ++ [item]) ↔ ∀ e, Table.find? t (.text s) = some e → e = d := by
  constructor
  · intro hone e he
    obtain ⟨a, ha, hdecl, hkey⟩ := (h.find?_iff _ e).mp he
    exact hone a (by simp [ha]) item (by simp) e d hdecl hd (hkey.trans hc.symm)
  · intro hall
    have hnew {a : Item} (ha : a ∈ done) {e : NamespaceDecl} (he : declaredBy a = .ok (some e))
        (hcrate : e.crateName = d.crateName) : e = d :=
      hall e ((h.find?_iff _ e).mpr ⟨a, ha, he, hcrate.trans hc⟩)
    have hsame {e : NamespaceDecl} (he : declaredBy item = .ok (some e)) : d = e :=
      Option.some.inj (Except.ok.inj (hd.symm.trans he))
    intro a ha b hb e f he hf hcrate
    rcases List.mem_append.mp ha with ha | ha <;> rcases List.mem_append.mp hb with hb | hb
    · exact h.oneNamespace a ha b hb e f he hf hcrate
    · rw [List.mem_singleton.mp hb] at hf
      rw [← hsame hf] at hcrate ⊢
      exact hnew ha he hcrate
    · rw [List.mem_singleton.mp ha] at he
      rw [← hsame he] at hcrate ⊢
      exact (hnew hb hf hcrate.symm).symm
    · rw [List.mem_singleton.mp ha] at he
      rw [List.mem_singleton.mp hb] at hf
      rw [← hsame he, ← hsame hf]

private theorem snoc_of_declares_none (h : Registers t done) (hi : item.isAddressed = true)
    (hn : declaredBy item = .ok none) : Registers t (done ++ [item]) where
  addressed := addressed_snoc h.addressed hi
  distinct := h.distinct
  find?_iff key e := by
    rw [h.find?_iff]
    constructor
    · rintro ⟨a, ha, he⟩
      exact ⟨a, List.mem_append_left _ ha, he⟩
    · rintro ⟨a, ha, he, hkey⟩
      rcases List.mem_append.mp ha with ha | ha
      · exact ⟨a, ha, he, hkey⟩
      · rw [List.mem_singleton.mp ha, hn] at he
        cases he

/-- One more item can be registered exactly if it declares no other namespace for its crate. -/
theorem declare (h : Registers t done) (hi : item.isAddressed = true) :
    ((∃ t', Grouping.declare t item = .ok t') ↔ OneNamespace (done ++ [item])) ∧
      ∀ t', Grouping.declare t item = .ok t' → Registers t' (done ++ [item]) := by
  rcases declaredBy_of_isAddressed hi with hn | ⟨d, hd, htyped⟩
  · have hsnoc := h.snoc_of_declares_none hi hn
    rw [declare_none hn]
    refine ⟨⟨fun _ => hsnoc.oneNamespace, fun _ => ⟨t, rfl⟩⟩, fun t' ht' => ?_⟩
    obtain rfl := Except.ok.inj ht'
    exact hsnoc
  · obtain ⟨s, hc⟩ := crateName_text htyped
    have hone := h.oneNamespace_snoc_iff hd hc
    rw [declare_some hd hc]
    cases he : Table.find? t (.text s) with
    | none =>
      have hone := hone.mpr fun e hf => by rw [he] at hf; cases hf
      refine ⟨⟨fun _ => hone, fun _ => ⟨_, rfl⟩⟩, fun t' ht' => ?_⟩
      obtain rfl := Except.ok.inj ht'
      exact h.put hi hd hc hone
    | some earlier =>
      obtain ⟨a, ha, hdecl, hkey⟩ := (h.find?_iff _ earlier).mp he
      have hsame : earlier.name.equals d.name = true ↔ earlier = d := by
        have htyped' := typed_of_declaredBy (h.addressed a ha) hdecl
        rw [NamespaceDecl.isTyped, Bool.and_eq_true] at htyped htyped'
        rw [Value.equals_iff_of_isText htyped'.2 htyped.2]
        constructor
        · intro hname
          obtain ⟨c, n⟩ := earlier
          obtain ⟨c', n'⟩ := d
          obtain rfl : c = c' := hkey.trans hc.symm
          obtain rfl : n = n' := hname
          rfl
        · rintro rfl
          rfl
      dsimp only
      by_cases hname : earlier.name.equals d.name = true
      · have hone := hone.mpr fun e hf => by
          rw [he] at hf
          rw [← Option.some.inj hf, hsame.mp hname]
        rw [if_pos hname]
        refine ⟨⟨fun _ => hone, fun _ => ⟨_, rfl⟩⟩, fun t' ht' => ?_⟩
        obtain rfl := Except.ok.inj ht'
        exact h.put hi hd hc hone
      · rw [if_neg hname]
        refine ⟨⟨?_, fun h' => absurd (hsame.mpr (hone.mp h' earlier he)) hname⟩, ?_⟩
        · rintro ⟨t', ht'⟩
          cases ht'
        · intro t' ht'
          cases ht'

/-- Registered items determine the look-ups of the table, in any order. -/
theorem find?_eq_of_perm (h : Registers t items) {items' : List Item} (h' : Registers t' items')
    (hp : items.Perm items') (key : Scalar) : Table.find? t key = Table.find? t' key := by
  have hiff (d : NamespaceDecl) : Table.find? t key = some d ↔ Table.find? t' key = some d := by
    rw [h.find?_iff, h'.find?_iff]
    constructor
    · rintro ⟨a, ha, hd⟩
      exact ⟨a, hp.mem_iff.mp ha, hd⟩
    · rintro ⟨a, ha, hd⟩
      exact ⟨a, hp.mem_iff.mpr ha, hd⟩
  exact Option.ext hiff

end Registers

private theorem OneNamespace.of_append {as bs : List Item} (h : OneNamespace (as ++ bs)) :
    OneNamespace as :=
  fun a ha b hb => h a (List.mem_append_left _ ha) b (List.mem_append_left _ hb)

/-- The namespaces of addressed items can be told exactly if the items declare one for each
crate. -/
theorem namespaces_spec (ha : ∀ a ∈ items, a.isAddressed = true) :
    ((∃ t, namespaces items = .ok t) ↔ OneNamespace items) ∧
      ∀ t, namespaces items = .ok t → Registers t items :=
  foldlM_exact (f := Grouping.declare) (fun _ _ _ h hi => h.declare hi)
    (fun _ _ h => h.of_append) Registers.nil (by simp [OneNamespace]) ha

/-- Whether an item is one that goes into a group, and not the namespace of one. -/
def isMember (item : Item) : Bool := item.kind != .namespaceDecl

/-- Whether an item goes into the group of a crate. -/
def belongsTo (crate : Scalar) (item : Item) : Bool :=
  isMember item &&
    match item.crateName with
    | .ok v => v.scalar? = some crate
    | .error _ => false

/-- Items are different if no two of those that go into groups have the same content. -/
def Different (items : List Item) : Prop :=
  (items.filter isMember).Pairwise fun a b => a.same b = false

/-- Typed items are different if none occurs twice. -/
theorem different_iff_nodup (ht : ∀ a ∈ items, a.isTyped = true) :
    Different items ↔ (items.filter isMember).Nodup := by
  have hsame {a b : Item} (ha : a ∈ items.filter isMember) (hb : b ∈ items.filter isMember) :
      a.same b = false ↔ a ≠ b := by
    rw [← Bool.not_eq_true, Item.same_iff (ht a (List.mem_filter.mp ha).1)
      (ht b (List.mem_filter.mp hb).1)]
  exact List.Pairwise.iff_of_mem hsame

/-- Items can be placed: their crates have namespaces, and they are different. -/
structure Placeable (t : Table NamespaceDecl) (items : List Item) : Prop where
  known : ∀ item ∈ items, ∀ crate, belongsTo crate item = true → t.has crate = true
  different : Different items

/-- A table has, under each crate with a namespace, the items of the crate in their order. -/
structure Places (t : Table NamespaceDecl) (m : Table (List Item)) (items : List Item) : Prop where
  addressed : ∀ item ∈ items, item.isAddressed = true
  placeable : Placeable t items
  find? : ∀ crate,
    Table.find? m crate = (Table.find? t crate).map fun _ => items.filter (belongsTo crate)

variable {m m' : Table (List Item)}

private theorem Placeable.of_append {as bs : List Item} (h : Placeable t (as ++ bs)) :
    Placeable t as where
  known a ha := h.known a (List.mem_append_left _ ha)
  different := by
    have hdifferent := h.different
    rw [Different, List.filter_append] at hdifferent
    exact (List.pairwise_append.mp hdifferent).1

private theorem Placeable.perm {items' : List Item} (h : Placeable t items) (hp : items.Perm items')
    (ht : ∀ a ∈ items, a.isTyped = true) : Placeable t items' where
  known a ha := h.known a (hp.mem_iff.mpr ha)
  different := by
    rw [different_iff_nodup fun a ha => ht a (hp.mem_iff.mpr ha),
      ← (hp.filter isMember).nodup_iff, ← different_iff_nodup ht]
    exact h.different

private theorem Placeable.congr {items : List Item} (h : Placeable t items)
    (hf : ∀ key, Table.find? t key = Table.find? t' key) : Placeable t' items where
  known a ha crate hb := by
    rw [Table.has, ← hf]
    exact h.known a ha crate hb
  different := h.different

private theorem places_nil : Places t (Table.mapValues (fun _ => []) t) [] where
  addressed := by simp
  placeable := ⟨by simp, List.Pairwise.nil⟩
  find? crate := Table.find?_mapValues _ _ _

/-- A member is placed behind the others of its crate, if the crate has a place. -/
theorem place_member {s : String} (h : isMember item = true)
    (hc : item.crateName = .ok (.text s)) :
    place m item =
      match Table.find? m (.text s) with
      | none => .error (.unknownNamespace item.kind item.described (.text s))
      | some earlier =>
        if earlier.any (·.same item) then .error (.duplicate item.kind item.described)
        else .ok (Table.put m (.text s) (earlier ++ [item])) := by
  cases item with
  | namespaceDecl d => cases h
  | _ =>
    rw [place, hc]
    · rfl
    · simp

/-- A member belongs to the crate it names and to no other. -/
theorem belongsTo_iff {s : String} (h : isMember item = true)
    (hc : item.crateName = .ok (.text s)) (crate : Scalar) :
    belongsTo crate item = true ↔ crate = .text s := by
  rw [belongsTo, h, hc]
  simp [Value.scalar?, eq_comm]

namespace Places

-- Items with the same content are of one crate.
private theorem belongsTo_of_same {a : Item} (ha : a.isAddressed = true)
    (hi : item.isAddressed = true) (hm : isMember a = true) (h : a.same item = true) {s : String}
    (hc : item.crateName = .ok (.text s)) : belongsTo (.text s) a = true := by
  have hpath {v w : Value} (hv : a.modulePath? = some v) (hw : item.modulePath? = some w)
      (hvw : v.same w = true) : v = w :=
    (Value.same_iff_of_isText (isText_modulePath ha hv) (isText_modulePath hi hw)).mp hvw
  have hcrate : a.crateName = item.crateName := by
    cases a <;> cases item <;> first | cases h | cases hm
    all_goals
      simp only [Item.same, UdlFileDecl.same, FunctionDecl.same, ConstructorDecl.same,
        MethodDecl.same, RecordDecl.same, EnumDecl.same, ObjectDecl.same,
        CallbackInterfaceDecl.same, CustomTypeDecl.same, Bool.and_eq_true] at h
      exact congrArg crateOfPath (hpath rfl rfl (by simp only [h]))
  exact (belongsTo_iff hm (hcrate.trans hc) _).mpr rfl

-- An item has the content of one of its crate exactly if it has the content of any.
private theorem any_same_iff (ha : ∀ a ∈ done, a.isAddressed = true)
    (hi : item.isAddressed = true) {s : String} (hc : item.crateName = .ok (.text s)) :
    (done.filter (belongsTo (.text s))).any (·.same item) = true ↔
      ¬∀ a ∈ done.filter isMember, a.same item = false := by
  rw [List.any_eq_true]
  push Not
  refine exists_congr fun a => ?_
  simp only [List.mem_filter, ne_eq, Bool.not_eq_false, and_assoc]
  refine and_congr_right fun hmem => and_congr_left fun hsame => ?_
  constructor
  · intro hb
    rw [belongsTo, Bool.and_eq_true] at hb
    exact hb.1
  · intro hm
    exact belongsTo_of_same (ha a hmem) hi hm hsame hc

private theorem placeable_snoc_iff (h : Placeable t done) {s : String} (hm : isMember item = true)
    (hc : item.crateName = .ok (.text s)) : Placeable t (done ++ [item]) ↔
      t.has (.text s) = true ∧ ∀ a ∈ done.filter isMember, a.same item = false := by
  have hdifferent : Different (done ++ [item]) ↔
      ∀ a ∈ done.filter isMember, a.same item = false := by
    have hdone : (done.filter isMember).Pairwise fun a b => a.same b = false := h.different
    rw [Different, List.filter_append, List.filter_cons, if_pos hm, List.filter_nil,
      List.pairwise_append]
    simp [hdone]
  constructor
  · intro hp
    exact ⟨hp.known item (by simp) _ ((belongsTo_iff hm hc _).mpr rfl), hdifferent.mp hp.different⟩
  · rintro ⟨hhas, hnew⟩
    refine ⟨fun a ha crate hb => ?_, hdifferent.mpr hnew⟩
    rcases List.mem_append.mp ha with ha | ha
    · exact h.known a ha crate hb
    · rw [List.mem_singleton.mp ha, belongsTo_iff hm hc] at hb
      rw [hb]
      exact hhas

private theorem placeable_snoc_namespace (h : Placeable t done) (hm : isMember item = false) :
    Placeable t (done ++ [item]) where
  known a ha crate hb := by
    rcases List.mem_append.mp ha with ha | ha
    · exact h.known a ha crate hb
    · rw [List.mem_singleton.mp ha, belongsTo, hm] at hb
      cases hb
  different := by
    rw [Different, List.filter_append, List.filter_cons, hm]
    simpa [Different] using h.different

/-- One more item can be placed exactly if its crate has a namespace and it has not occurred yet. -/
theorem place (h : Places t m done) (hi : item.isAddressed = true) :
    ((∃ m', Grouping.place m item = .ok m') ↔ Placeable t (done ++ [item])) ∧
      ∀ m', Grouping.place m item = .ok m' → Places t m' (done ++ [item]) := by
  obtain ⟨s, hc⟩ := crateName_of_isAddressed hi
  cases hm : isMember item with
  | false =>
    have hp := placeable_snoc_namespace h.placeable hm
    have hplace : Grouping.place m item = .ok m := by
      cases item with
      | namespaceDecl d => rfl
      | _ => cases hm
    rw [hplace]
    refine ⟨⟨fun _ => hp, fun _ => ⟨m, rfl⟩⟩, fun m' hm' => ?_⟩
    obtain rfl := Except.ok.inj hm'
    refine ⟨addressed_snoc h.addressed hi, hp, fun crate => ?_⟩
    have hb : belongsTo crate item = false := by rw [belongsTo, hm, Bool.false_and]
    rw [h.find?, List.filter_append, List.filter_cons, hb]
    simp
  | true =>
    have hiff := placeable_snoc_iff h.placeable hm hc
    have hfind := h.find? (.text s)
    rw [place_member hm hc]
    cases ht : Table.find? t (.text s) with
    | none =>
      rw [ht] at hfind
      rw [hfind]
      refine ⟨⟨?_, fun hp => ?_⟩, ?_⟩
      · rintro ⟨m', hm'⟩
        cases hm'
      · have hhas := (hiff.mp hp).1
        rw [Table.has, ht] at hhas
        cases hhas
      · intro m' hm'
        cases hm'
    | some d =>
      have hhas : t.has (.text s) = true := by
        rw [Table.has, ht]
        rfl
      rw [ht] at hfind
      rw [hfind, Option.map_some]
      rw [and_iff_right hhas, ← not_iff_not, ← any_same_iff h.addressed hi hc] at hiff
      dsimp only
      by_cases hany : (done.filter (belongsTo (.text s))).any (·.same item) = true
      · rw [if_pos hany]
        refine ⟨⟨?_, fun hp => absurd hp (hiff.mpr hany)⟩, ?_⟩
        · rintro ⟨m', hm'⟩
          cases hm'
        · intro m' hm'
          cases hm'
      · have hp := not_not.mp fun hp => hany (hiff.mp hp)
        rw [if_neg hany]
        refine ⟨⟨fun _ => hp, fun _ => ⟨_, rfl⟩⟩, fun m' hm' => ?_⟩
        obtain rfl := Except.ok.inj hm'
        refine ⟨addressed_snoc h.addressed hi, hp, fun crate => ?_⟩
        rw [Table.find?_put, List.filter_append, List.filter_cons]
        by_cases hk : (Scalar.text s).same crate = true
        · obtain rfl := Scalar.eq_text_of_same (Scalar.same_symm hk)
          rw [if_pos hk, (belongsTo_iff hm hc _).mpr rfl, ht]
          rfl
        · have hb : ¬belongsTo crate item = true := by
            rw [belongsTo_iff hm hc]
            rintro rfl
            exact hk (Scalar.same_refl _)
          rw [if_neg hk, if_neg hb, h.find?, List.filter_nil, List.append_nil]

end Places

/-- Addressed items can be placed, one after the other, exactly if all of them can. -/
theorem foldlM_place_spec (ha : ∀ a ∈ items, a.isAddressed = true) :
    ((∃ m, items.foldlM place (Table.mapValues (fun _ => []) t) = .ok m) ↔ Placeable t items) ∧
      ∀ m, items.foldlM place (Table.mapValues (fun _ => []) t) = .ok m → Places t m items :=
  foldlM_exact (f := place) (fun _ _ _ h hi => h.place hi) (fun _ _ h => h.of_append) places_nil
    places_nil.placeable ha

private theorem rearranged {t' : Table NamespaceDecl} {items' : List Item}
    (ht : ∀ a ∈ items, a.isTyped = true) (h : Registers t items)
    (hm : Places t m items) (hm' : Places t' m' items') (hp : items.Perm items') {crate : Scalar}
    (hf : Table.find? t crate = some d) (hf' : Table.find? t' crate = some d) :
    Group.Rearranged ⟨d, (Table.find? m crate).getD []⟩ ⟨d, (Table.find? m' crate).getD []⟩ ∧
      (Table.find? m crate).getD [] ⊆ items := by
  obtain ⟨a, ha, hd, -⟩ := (h.find?_iff crate d).mp hf
  rw [hm.find?, hm'.find?, hf, hf']
  refine ⟨⟨rfl, hp.filter _, ?_⟩, List.filter_subset_self items⟩
  rw [Group.isTyped_iff]
  exact ⟨typed_of_declaredBy (h.addressed a ha) hd, fun a ha => ht a (List.mem_filter.mp ha).1⟩

/-- Typed items and a permutation of them can be grouped together, and give the same crates in the
same order. -/
theorem groups_perm {items' : List Item} (hp : items.Perm items')
    (ht : ∀ a ∈ items, a.isTyped = true) :
    Corresponds (List.Forall₂ fun g g' => g.Rearranged g' ∧ g.items ⊆ items) (groups items)
      (groups items') := by
  have ht' : ∀ a ∈ items', a.isTyped = true := fun a ha => ht a (hp.mem_iff.mpr ha)
  have ha : ∀ a ∈ items, a.isAddressed = true := fun a hmem =>
    Item.isAddressed_of_isTyped (ht a hmem)
  have ha' : ∀ a ∈ items', a.isAddressed = true := fun a hmem => ha a (hp.mem_iff.mpr hmem)
  obtain ⟨hok, hreg⟩ := namespaces_spec ha
  obtain ⟨hok', hreg'⟩ := namespaces_spec ha'
  have hone : OneNamespace items ↔ OneNamespace items' := by
    simp only [OneNamespace, hp.mem_iff]
  have hnames : Corresponds (fun t t' => Registers t items ∧ Registers t' items')
      (namespaces items) (namespaces items') :=
    .of_iff (hok.trans (hone.trans hok'.symm)) fun t t' h h' => ⟨hreg t h, hreg' t' h'⟩
  refine hnames.bind ?_
  rintro t t' ⟨h, h'⟩
  have hfind := h.find?_eq_of_perm h' hp
  obtain ⟨hplace, hplaces⟩ := foldlM_place_spec (t := t) ha
  obtain ⟨hplace', hplaces'⟩ := foldlM_place_spec (t := t') ha'
  have hplaceable : Placeable t items ↔ Placeable t' items' :=
    ⟨fun hq => (hq.congr hfind).perm hp ht,
      fun hq => (hq.perm hp.symm ht').congr fun key => (hfind key).symm⟩
  have hmembers := Corresponds.of_iff (hplace.trans (hplaceable.trans hplace'.symm))
    fun m m' h h' => And.intro (hplaces m h) (hplaces' m' h')
  refine hmembers.bind ?_
  rintro m m' ⟨hm, hm'⟩
  have hsorted : sortOn Prod.fst t = sortOn Prod.fst t' :=
    Table.sortOn_eq_of_find? h.distinct h'.distinct h.textKeyed.worded h'.textKeyed.worded hfind
  rw [sortByKey_of_words h.textKeyed.worded, sortByKey_of_words h'.textKeyed.worded, ← hsorted]
  refine .ok (List.forall₂_map_left_iff.mpr (List.forall₂_map_right_iff.mpr
    (List.forall₂_same.mpr fun e he => ?_)))
  have hf : Table.find? t e.1 = some e.2 :=
    Table.find?_of_mem h.distinct ((sortOn_perm h.textKeyed.worded).mem_iff.mp he) (Scalar.same_refl _)
  exact rearranged ht h hm hm' hp hf ((hfind e.1).symm.trans hf)

end Grouping
end BindGen

import BindGen.Proofs.Interface.Folding
import BindGen.Proofs.Run.Fold

/-!
# Folding groups into an interface

Groups that are folded one after the other fit if they name one namespace, all their items agree,
and no member comes before the group of its object. Folding succeeds exactly on such groups, and the
interface holds their items under the names of the first group. Within a group the order of the
items does not matter: the kinds are folded in an order in which the objects come before their
members.
-/

namespace BindGen.Interface

variable {i i' : Interface} {done items : List Item}

/-- The kinds of items that declare something in an interface. -/
def declares (item : Item) : Bool := item.kind ∈ foldOrder

private theorem filter_kinds_perm (items : List Item) {kinds : List Kind} (h : kinds.Nodup) :
    (kinds.flatMap fun kind => items.filter (·.kind == kind)).Perm
      (items.filter (·.kind ∈ kinds)) := by
  induction kinds with
  | nil => simp
  | cons kind kinds ih =>
    obtain ⟨hk, hn⟩ := List.nodup_cons.mp h
    rw [List.flatMap_cons]
    have hsplit := List.filter_append_perm (·.kind == kind) (items.filter (·.kind ∈ kind :: kinds))
    refine List.Perm.trans ?_ hsplit
    rw [List.filter_filter, List.filter_filter]
    refine List.Perm.append (.of_eq ?_) ((ih hn).trans (.of_eq ?_))
    · apply List.filter_congr
      intro a _
      by_cases ha : a.kind = kind <;> simp [ha]
    · apply List.filter_congr
      intro a _
      by_cases ha : a.kind = kind
      · simp [ha, hk]
      · simp [ha]

/-- The items in fold order are those that declare something. -/
theorem inFoldOrder_perm (items : List Item) : (inFoldOrder items).Perm (items.filter declares) :=
  filter_kinds_perm items (by decide)

private theorem kind_of_owner {a : Item} (h : a.owner? ≠ none) :
    a.kind = .constructor ∨ a.kind = .method := by
  cases a with
  | constructor d => exact Or.inl rfl
  | method d => exact Or.inr rfl
  | _ => exact absurd rfl h

/-- In fold order no object comes after a member. -/
theorem pairwise_inFoldOrder (items : List Item) :
    (inFoldOrder items).Pairwise fun a b => a.owner? ≠ none → ∀ d, b ≠ .object d := by
  have horder : foldOrder.Pairwise fun k l => (k = .constructor ∨ k = .method) → l ≠ .object := by
    decide
  have hkind {a : Item} {kind : Kind} (ha : a ∈ items.filter (·.kind == kind)) : a.kind = kind :=
    eq_of_beq (List.mem_filter.mp ha).2
  refine List.pairwise_flatMap.mpr ⟨fun kind _ => ?_, horder.imp ?_⟩
  · refine List.pairwise_of_forall_mem_list ?_
    rintro a ha b hb howner d rfl
    have hk := kind_of_owner howner
    rw [hkind ha, ← hkind hb] at hk
    rcases hk with hk | hk <;> cases hk
  · rintro k l hkl a ha b hb howner d rfl
    have hk := kind_of_owner howner
    rw [hkind ha] at hk
    exact hkl hk (hkind hb).symm

/-- Items fit one after the other behind others. -/
def FitsAll : List Item → List Item → Prop
  | _, [] => True
  | done, item :: rest => item.Fits done ∧ FitsAll (done ++ [item]) rest

/-- Items in which no object comes after a member fit exactly if all agree and the object of every
member is among them or the items before them. -/
theorem fitsAll_iff (hp : items.Pairwise fun a b => a.owner? ≠ none → ∀ d, b ≠ .object d) :
    FitsAll done items ↔
      (∀ a ∈ done, ∀ b ∈ items, a.Agree b) ∧ items.Pairwise Item.Agree ∧
        ∀ item ∈ items, ∀ owner, item.owner? = some owner →
          ∃ d, .object d ∈ done ++ items ∧ d.name = owner := by
  induction items generalizing done with
  | nil => simp [FitsAll]
  | cons item rest ih =>
    obtain ⟨hitem, hrest⟩ := List.pairwise_cons.mp hp
    rw [FitsAll, ih hrest, List.pairwise_cons]
    constructor
    · rintro ⟨hf, hagree, hpair, howned⟩
      refine ⟨fun a ha b hb => ?_, ⟨fun b hb => hagree item (by simp) b hb, hpair⟩, ?_⟩
      · rcases List.mem_cons.mp hb with rfl | hb
        · exact hf.1 a ha
        · exact hagree a (List.mem_append_left _ ha) b hb
      · intro a ha owner hown
        rcases List.mem_cons.mp ha with rfl | ha
        · obtain ⟨d, hd, hname⟩ := hf.2 owner hown
          exact ⟨d, List.mem_append_left _ hd, hname⟩
        · obtain ⟨d, hd, hname⟩ := howned a ha owner hown
          rw [List.append_assoc] at hd
          exact ⟨d, hd, hname⟩
    · rintro ⟨hagree, ⟨hfirst, hpair⟩, howned⟩
      refine ⟨⟨fun a ha => hagree a ha item List.mem_cons_self, fun owner hown => ?_⟩, ?_, hpair,
        ?_⟩
      · obtain ⟨d, hd, hname⟩ := howned item List.mem_cons_self owner hown
        refine ⟨d, ?_, hname⟩
        have hne : item.owner? ≠ none := by rw [hown]; simp
        rcases List.mem_append.mp hd with hd | hd
        · exact hd
        · rcases List.mem_cons.mp hd with rfl | hd
          · cases hown
          · exact absurd rfl (hitem _ hd hne d)
      · intro a ha b hb
        rcases List.mem_append.mp ha with ha | ha
        · exact hagree a ha b (List.mem_cons_of_mem _ hb)
        · rw [List.mem_singleton.mp ha]
          exact hfirst b hb
      · intro a ha owner hown
        rw [List.append_assoc]
        exact howned a (List.mem_cons_of_mem _ ha) owner hown

/-- All items of a list can be added exactly if they fit, and the interface then holds them too. -/
theorem Holds.addItems (h : i.Holds done) (ht : ∀ a ∈ done, a.isTyped = true)
    (hi : ∀ a ∈ items, a.isTyped = true) :
    ((∃ i', i.addItems items = (i', none)) ↔ FitsAll done items) ∧
      ∀ i', i.addItems items = (i', none) → i'.Holds (done ++ items) := by
  induction items generalizing i done with
  | nil =>
    refine ⟨⟨fun _ => trivial, fun _ => ⟨i, rfl⟩⟩, ?_⟩
    rintro i' h'
    rw [List.append_nil, ← (Prod.mk.inj h').1]
    exact h
  | cons item rest ih =>
    have hitem := hi item List.mem_cons_self
    have hrest : ∀ a ∈ rest, a.isTyped = true := fun a ha => hi a (List.mem_cons_of_mem _ ha)
    have hfits := h.addItem_isOk_iff ht hitem
    rw [FitsAll, Interface.addItems]
    cases hadd : i.addItem item with
    | error e =>
      rw [hadd] at hfits
      refine ⟨⟨?_, ?_⟩, ?_⟩
      · rintro ⟨i', h'⟩
        cases h'
      · rintro ⟨hf, -⟩
        obtain ⟨i', h'⟩ := hfits.mpr hf
        cases h'
      · rintro i' h'
        cases h'
    | ok next =>
      have ht' : ∀ a ∈ done ++ [item], a.isTyped = true := by
        intro a ha
        rcases List.mem_append.mp ha with ha | ha
        · exact ht a ha
        · rw [List.mem_singleton.mp ha]
          exact hitem
      obtain ⟨hiff, hholds⟩ := ih (h.addItem ht hitem hadd) ht' hrest
      refine ⟨⟨fun h' => ⟨hfits.mp ⟨next, hadd⟩, hiff.mp h'⟩, fun h' => hiff.mpr h'.2⟩, ?_⟩
      intro i' h'
      have := hholds i' h'
      rw [List.append_assoc] at this
      exact this

private theorem filterMap_declares {α : Type} {select : Item → Option α}
    (hs : ∀ a c, select a = some c → declares a = true) (items : List Item) :
    (items.filter declares).filterMap select = items.filterMap select := by
  rw [List.filterMap_filter]
  congr 1
  funext a
  split
  · rfl
  · next h =>
    cases hc : select a with
    | none => rfl
    | some c => exact absurd (hs a c hc) h

private theorem filterMap_perm {α : Type} {select : Item → Option α} {items' : List Item}
    (hp : (items.filter declares).Perm (items'.filter declares))
    (hs : ∀ a c, select a = some c → declares a = true) :
    (items.filterMap select).Perm (items'.filterMap select) := by
  rw [← filterMap_declares hs items, ← filterMap_declares hs items']
  exact hp.filterMap select

/-- What an interface holds depends neither on the order of the items nor on those that declare
nothing. -/
theorem Holds.of_declares_perm {items' : List Item} (h : i.Holds items)
    (hp : (items.filter declares).Perm (items'.filter declares)) : i.Holds items' := by
  have hmem {a : Item} (ha : declares a = true) : a ∈ items ↔ a ∈ items' := by
    have := hp.mem_iff (a := a)
    simpa [List.mem_filter, ha] using this
  refine ⟨h.functions.perm (filterMap_perm hp ?_), h.records.perm (filterMap_perm hp ?_),
    h.enums.perm (filterMap_perm hp ?_), h.callbackInterfaces.perm (filterMap_perm hp ?_),
    h.customTypes.perm (filterMap_perm hp ?_), h.objects.perm (filterMap_perm hp ?_),
    fun key o ho => (h.constructors key o ho).perm (filterMap_perm hp ?_),
    fun key o ho => (h.methods key o ho).perm (filterMap_perm hp ?_), ?_⟩
  case refine_9 =>
    intro item hi owner hown
    have hd : declares item = true := by cases item <;> first | rfl | cases hown
    obtain ⟨d, hd, hname⟩ := h.owned item ((hmem hd).mpr hi) owner hown
    exact ⟨d, (hmem rfl).mp hd, hname⟩
  all_goals
    intro a c hc
    cases a <;> first | rfl | cases hc

private theorem agree_of_not_declares {b : Item} (hb : declares b ≠ true) (a : Item) :
    a.Agree b := by
  cases b with
  | namespaceDecl d => cases a <;> trivial
  | udlFile d => cases a <;> trivial
  | _ => exact absurd rfl hb

private theorem mem_inFoldOrder {a : Item} (ha : declares a = true) :
    a ∈ inFoldOrder items ↔ a ∈ items := by
  rw [(inFoldOrder_perm items).mem_iff, List.mem_filter]
  exact and_iff_left ha

private theorem forall_inFoldOrder_iff {a : Item} :
    (∀ b ∈ inFoldOrder items, a.Agree b) ↔ ∀ b ∈ items, a.Agree b := by
  constructor
  · intro h b hb
    by_cases hd : declares b = true
    · exact h b ((mem_inFoldOrder hd).mpr hb)
    · exact agree_of_not_declares hd a
  · intro h b hb
    exact h b (List.mem_filter.mp ((inFoldOrder_perm items).mem_iff.mp hb)).1

private theorem pairwise_agree_iff (l : List Item) :
    l.Pairwise Item.Agree ↔ ∀ a ∈ l, ∀ b ∈ l, a.Agree b :=
  ⟨fun h _ ha _ hb => h.forall_of_forall_of_flip (fun a _ => Item.Agree.refl a)
    (h.imp fun hab => hab.symm) ha hb, List.pairwise_of_forall_mem_list⟩

/-- In fold order the items of a group fit exactly if they agree with each other and with the
earlier items, and the object of every member is declared among all of them. -/
theorem fitsAll_inFoldOrder_iff :
    FitsAll done (inFoldOrder items) ↔
      (∀ a ∈ done, ∀ b ∈ items, a.Agree b) ∧ (∀ a ∈ items, ∀ b ∈ items, a.Agree b) ∧
        ∀ item ∈ items, ∀ owner, item.owner? = some owner →
          ∃ d, .object d ∈ done ++ items ∧ d.name = owner := by
  rw [fitsAll_iff (pairwise_inFoldOrder items), pairwise_agree_iff]
  simp only [forall_inFoldOrder_iff]
  -- What the fold order leaves out agrees with everything and has no object.
  refine and_congr_right fun _ => and_congr ?_ ?_
  · constructor
    · intro h a ha b hb
      by_cases hd : declares a = true
      · exact h a ((mem_inFoldOrder hd).mpr ha) b hb
      · exact (agree_of_not_declares hd b).symm
    · intro h a ha
      exact h a (List.mem_filter.mp ((inFoldOrder_perm items).mem_iff.mp ha)).1
  · have hobj (owner : Value) :
        (∃ d, Item.object d ∈ done ++ inFoldOrder items ∧ d.name = owner) ↔
          ∃ d, Item.object d ∈ done ++ items ∧ d.name = owner := by
      simp only [List.mem_append, mem_inFoldOrder (a := .object _) rfl]
    simp only [hobj]
    constructor
    · intro h item hi owner hown
      have hd : declares item = true := by cases item <;> first | rfl | cases hown
      exact h item ((mem_inFoldOrder hd).mpr hi) owner hown
    · intro h item hi
      exact h item (List.mem_filter.mp ((inFoldOrder_perm items).mem_iff.mp hi)).1

/-- An interface to which the items of a group have been added in fold order holds them too. -/
theorem Holds.addInFoldOrder (h : i.Holds done) (ht : ∀ a ∈ done, a.isTyped = true)
    (hi : ∀ a ∈ items, a.isTyped = true) :
    ((∃ i', i.addItems (inFoldOrder items) = (i', none)) ↔ FitsAll done (inFoldOrder items)) ∧
      ∀ i', i.addItems (inFoldOrder items) = (i', none) → i'.Holds (done ++ items) := by
  have hperm := inFoldOrder_perm items
  have hi' : ∀ a ∈ inFoldOrder items, a.isTyped = true := fun a ha =>
    hi a (List.mem_filter.mp (hperm.mem_iff.mp ha)).1
  obtain ⟨hiff, hholds⟩ := h.addItems ht hi'
  refine ⟨hiff, fun i' h' => (hholds i' h').of_declares_perm ?_⟩
  rw [List.filter_append, List.filter_append]
  refine List.Perm.append_left _ ((hperm.filter declares).trans (.of_eq ?_))
  rw [List.filter_filter]
  simp

/-- The names of an interface are those of the first group, or none. -/
def NamedAfter (i : Interface) : List Group → Prop
  | [] => i.namespaceName = .null
  | g :: _ => i.namespaceName = g.declared.name ∧ i.crateName = g.declared.crateName

private theorem names_addItems (h : i.addItems items = (i', none)) :
    i'.namespaceName = i.namespaceName ∧ i'.crateName = i.crateName := by
  induction items generalizing i with
  | nil =>
    rw [← (Prod.mk.inj h).1]
    exact ⟨rfl, rfl⟩
  | cons item rest ih =>
    rw [addItems] at h
    cases hadd : i.addItem item with
    | error e =>
      rw [hadd] at h
      cases h
    | ok next =>
      rw [hadd] at h
      obtain ⟨hname, hcrate⟩ := names_addItem hadd
      rw [← hname, ← hcrate]
      exact ih h

private theorem NamedAfter.congr {gs : List Group} (h : i.NamedAfter gs)
    (hnames : i'.namespaceName = i.namespaceName ∧ i'.crateName = i.crateName) :
    i'.NamedAfter gs := by
  cases gs with
  | nil => exact hnames.1.trans h
  | cons g gs => exact ⟨hnames.1.trans h.1, hnames.2.trans h.2⟩

/-- Groups fit one behind the other: they name one namespace, their items agree, and the object of
every member is declared in the group of the member or in an earlier one. -/
structure Foldable (gs : List Group) : Prop where
  oneNamespace : ∀ g ∈ gs, ∀ h ∈ gs, g.declared.name = h.declared.name
  agree : ∀ a ∈ gs.flatMap Group.items, ∀ b ∈ gs.flatMap Group.items, a.Agree b
  owned : ∀ earlier g later, gs = earlier ++ g :: later → ∀ item ∈ g.items,
    ∀ owner, item.owner? = some owner →
      ∃ d, .object d ∈ (earlier ++ [g]).flatMap Group.items ∧ d.name = owner

/-- Earlier groups fit without the later ones. -/
theorem Foldable.of_append {gs hs : List Group} (h : Foldable (gs ++ hs)) : Foldable gs where
  oneNamespace g hg k hk :=
    h.oneNamespace g (List.mem_append_left _ hg) k (List.mem_append_left _ hk)
  agree a ha b hb := by
    apply h.agree <;> rw [List.flatMap_append]
    · exact List.mem_append_left _ ha
    · exact List.mem_append_left _ hb
  owned earlier g later hgs := by
    apply h.owned earlier g (later ++ hs)
    rw [hgs, List.append_assoc, List.cons_append]

/-- Groups have been folded into an interface: they fit, and the interface holds their items and has
the names of the first. -/
structure Folded (i : Interface) (gs : List Group) : Prop where
  typed : ∀ g ∈ gs, g.isTyped = true
  foldable : Foldable gs
  holds : i.Holds (gs.flatMap Group.items)
  names : i.NamedAfter gs

private theorem folded_empty : empty.Folded [] where
  typed := by simp
  foldable := ⟨by simp, by simp, fun earlier g later h => by simp at h⟩
  holds := holds_empty
  names := rfl

/-- The items of groups with one more behind them end with those of that one. -/
theorem flatMap_items_snoc (gs : List Group) (g : Group) :
    (gs ++ [g]).flatMap Group.items = gs.flatMap Group.items ++ g.items := by
  rw [List.flatMap_append, List.flatMap_singleton]

/-- A group fits behind others if it is of their namespace and its items fit behind theirs. -/
theorem foldable_snoc_iff {gs : List Group} (h : Foldable gs) (g : Group) :
    Foldable (gs ++ [g]) ↔
      (∀ f ∈ gs, f.declared.name = g.declared.name) ∧
        FitsAll (gs.flatMap Group.items) (inFoldOrder g.items) := by
  rw [fitsAll_inFoldOrder_iff]
  constructor
  · intro hg
    have hagree := hg.agree
    rw [flatMap_items_snoc] at hagree
    refine ⟨fun f hf => hg.oneNamespace f (by simp [hf]) g (by simp), ?_, ?_, ?_⟩
    · exact fun a ha b hb => hagree a (List.mem_append_left _ ha) b (List.mem_append_right _ hb)
    · exact fun a ha b hb => hagree a (List.mem_append_right _ ha) b (List.mem_append_right _ hb)
    · intro item hi owner hown
      rw [← flatMap_items_snoc]
      exact hg.owned gs g [] rfl item hi owner hown
  · rintro ⟨hname, hbefore, hwithin, howned⟩
    constructor
    case oneNamespace =>
      intro f hf k hk
      rcases List.mem_append.mp hf with hf | hf <;> rcases List.mem_append.mp hk with hk | hk
      · exact h.oneNamespace f hf k hk
      · rw [List.mem_singleton.mp hk]
        exact hname f hf
      · rw [List.mem_singleton.mp hf]
        exact (hname k hk).symm
      · rw [List.mem_singleton.mp hf, List.mem_singleton.mp hk]
    case agree =>
      rw [flatMap_items_snoc]
      intro a ha b hb
      rcases List.mem_append.mp ha with ha | ha <;> rcases List.mem_append.mp hb with hb | hb
      · exact h.agree a ha b hb
      · exact hbefore a ha b hb
      · exact (hbefore b hb a ha).symm
      · exact hwithin a ha b hb
    case owned =>
      intro earlier f later hgs
      rcases List.eq_nil_or_concat later with rfl | ⟨later', k, rfl⟩
      · obtain ⟨rfl, hf⟩ := List.append_inj' hgs rfl
        obtain rfl : g = f := List.singleton_inj.mp hf
        rw [flatMap_items_snoc]
        exact howned
      · apply h.owned earlier f later'
        rw [List.concat_eq_append, ← List.cons_append, ← List.append_assoc] at hgs
        exact (List.append_inj' hgs rfl).1

private theorem typed_flatMap {gs : List Group} (ht : ∀ g ∈ gs, g.isTyped = true) :
    ∀ a ∈ gs.flatMap Group.items, a.isTyped = true := by
  intro a ha
  obtain ⟨g, hg, ha⟩ := List.mem_flatMap.mp ha
  exact (Group.isTyped_iff.mp (ht g hg)).2 a ha

private theorem name_declared {g : Group} (ht : g.isTyped = true) :
    g.declared.name.isText = true := by
  simp only [Group.isTyped, NamespaceDecl.isTyped, Bool.and_eq_true] at ht
  exact ht.1.2

-- A group sets the names of an interface, or is refused, as its namespace demands.
private theorem setNamespace_spec {gs : List Group} (h : i.Folded gs) {g : Group}
    (hg : g.isTyped = true) :
    ((∃ i', i.setNamespace g.declared = .ok i') ↔ ∀ f ∈ gs, f.declared.name = g.declared.name) ∧
      ∀ i', i.setNamespace g.declared = .ok i' →
        i'.Holds (gs.flatMap Group.items) ∧ i'.NamedAfter (gs ++ [g]) := by
  cases gs with
  | nil =>
    have hnull : i.namespaceName.isNull = true := Value.isNull_iff.mpr h.names
    rw [setNamespace, if_pos hnull]
    refine ⟨⟨fun _ _ hf => absurd hf List.not_mem_nil, fun _ => ⟨_, rfl⟩⟩, ?_⟩
    intro i' h'
    obtain rfl := Except.ok.inj h'
    exact ⟨h.holds.setNames _ _, rfl, rfl⟩
  | cons f gs =>
    obtain ⟨hname, hcrate⟩ := h.names
    have hf := name_declared (h.typed f List.mem_cons_self)
    have hnull : ¬i.namespaceName.isNull = true := by
      rw [hname, Value.isNull_iff]
      intro hn
      rw [hn] at hf
      cases hf
    have hsame := Value.equals_iff_of_isText hf (name_declared hg)
    rw [setNamespace, if_neg hnull, hname]
    split
    · next hs =>
      have heq := hsame.mp hs
      refine ⟨⟨fun _ k hk => ?_, fun _ => ⟨_, rfl⟩⟩, ?_⟩
      · rw [← heq]
        exact h.foldable.oneNamespace k hk f List.mem_cons_self
      · intro i' h'
        obtain rfl := Except.ok.inj h'
        exact ⟨h.holds, hname, hcrate⟩
    · next hs =>
      refine ⟨⟨?_, fun hall => absurd (hsame.mpr (hall f List.mem_cons_self)) hs⟩, ?_⟩
      · rintro ⟨i', h'⟩
        cases h'
      · intro i' h'
        cases h'

/-- One more group can be folded exactly if it fits behind the earlier ones, and the interface then
is what they all fold into. -/
theorem Folded.fold {gs : List Group} (h : i.Folded gs) {g : Group} (hg : g.isTyped = true) :
    ((∃ i', i.fold g = .ok i') ↔ Foldable (gs ++ [g])) ∧
      ∀ i', i.fold g = .ok i' → i'.Folded (gs ++ [g]) := by
  obtain ⟨hset, hsets⟩ := setNamespace_spec h hg
  have hfoldable := foldable_snoc_iff h.foldable g
  rw [← hset] at hfoldable
  rw [Interface.fold, addGroup]
  cases hn : i.setNamespace g.declared with
  | error e =>
    rw [hn] at hfoldable
    refine ⟨⟨?_, fun hf => ?_⟩, ?_⟩
    · rintro ⟨i', h'⟩
      cases h'
    · obtain ⟨⟨i', h'⟩, -⟩ := hfoldable.mp hf
      cases h'
    · intro i' h'
      cases h'
  | ok j =>
    obtain ⟨hholds, hnames⟩ := hsets j hn
    obtain ⟨hfits, hadds⟩ :=
      hholds.addInFoldOrder (typed_flatMap h.typed) (Group.isTyped_iff.mp hg).2
    have hnamed : ∃ i', i.setNamespace g.declared = .ok i' := ⟨j, hn⟩
    rw [← hfits, and_iff_right hnamed] at hfoldable
    dsimp only
    cases hadd : j.addItems (inFoldOrder g.items) with
    | mk k e =>
      rw [hadd] at hfoldable
      cases e with
      | some e =>
        refine ⟨⟨?_, fun hf => ?_⟩, ?_⟩
        · rintro ⟨i', h'⟩
          cases h'
        · obtain ⟨i', h'⟩ := hfoldable.mp hf
          cases h'
        · intro i' h'
          cases h'
      | none =>
        have hf := hfoldable.mpr ⟨k, rfl⟩
        refine ⟨⟨fun _ => hf, fun _ => ⟨k, rfl⟩⟩, fun i' h' => ?_⟩
        obtain rfl := Except.ok.inj h'
        refine ⟨fun f hm => ?_, hf, ?_, hnames.congr (names_addItems hadd)⟩
        · rcases List.mem_append.mp hm with hm | hm
          · exact h.typed f hm
          · rw [List.mem_singleton.mp hm]
            exact hg
        · rw [flatMap_items_snoc]
          exact hadds k hadd

/-- Groups can be folded, one after the other, exactly if they fit, and the interface is then what
they all fold into. -/
theorem foldlM_folded {gs : List Group} (ht : ∀ g ∈ gs, g.isTyped = true) :
    ((∃ i, gs.foldlM Interface.fold empty = .ok i) ↔ Foldable gs) ∧
      ∀ i, gs.foldlM Interface.fold empty = .ok i → i.Folded gs :=
  foldlM_exact (f := Interface.fold) (fun _ _ _ h hg => h.fold hg) (fun _ _ h => h.of_append)
    folded_empty folded_empty.foldable ht

/-- Typed groups can be folded into an interface exactly if they fit. The interface then holds their
items: each of its tables has the names of the items of its kind, each entry is any of the items of
its name under their one docstring, and the members stand under the objects that they name. The
interface has the names of the first group. -/
theorem foldlM_fold_empty {gs : List Group} (ht : ∀ g ∈ gs, g.isTyped = true) :
    ((∃ i, gs.foldlM Interface.fold empty = .ok i) ↔ Foldable gs) ∧
      ∀ i, gs.foldlM Interface.fold empty = .ok i →
        i.Holds (gs.flatMap Group.items) ∧ i.NamedAfter gs := by
  obtain ⟨hiff, hfolded⟩ := foldlM_folded ht
  exact ⟨hiff, fun i h => ⟨(hfolded i h).holds, (hfolded i h).names⟩⟩

/-- Two groups of one crate: an object without a docstring, then the object with one and a
method. -/
def refiningGroups : List Group :=
  [⟨⟨.text "demo", .text "demo"⟩, [.object ⟨.text "demo", .text "Shape", .null⟩]⟩,
    ⟨⟨.text "demo", .text "demo"⟩,
      [.method ⟨.text "demo", .text "Shape", .text "area", [], .text "f64", .null, .bool false,
          .null⟩,
        .object ⟨.text "demo", .text "Shape", .text "A shape."⟩]⟩]

/-- An object without a docstring and then the same object with one, and a method in front of it,
fold into an interface that holds all three. -/
theorem foldlM_fold_empty_refiningGroups :
    (∀ g ∈ refiningGroups, g.isTyped = true) ∧ Foldable refiningGroups ∧
      ∃ i, refiningGroups.foldlM Interface.fold empty = .ok i ∧
        i.Holds (refiningGroups.flatMap Group.items) ∧ i.namespaceName = .text "demo" := by
  have ht : ∀ g ∈ refiningGroups, g.isTyped = true := by decide
  obtain ⟨hiff, hholds⟩ := foldlM_fold_empty ht
  have hok : ∃ i, refiningGroups.foldlM Interface.fold empty = .ok i := ⟨_, rfl⟩
  obtain ⟨i, hi⟩ := hok
  exact ⟨ht, hiff.mp ⟨i, hi⟩, i, hi, (hholds i hi).1, (hholds i hi).2.1⟩

end BindGen.Interface

import BindGen.Proofs.Value.Table
import BindGen.Value.Fault

/-!
# Sorting tables by texts

Texts are ordered by their code points, which is a linear order. A table whose keys are texts can
therefore always be sorted, and sorting forgets the order of its entries: two tables with the same
look-ups give the same list. Whatever the keys are, sorting looks at them alone.
-/

namespace BindGen

namespace Scalar

/-- The numbers of the code points of a text. -/
def codePoints (t : LooseText) : List Nat := t.points.map (·.val)

private theorem codePoints_injective {a b : LooseText} (h : codePoints a = codePoints b) : a = b :=
  LooseText.points_injective (List.map_inj_right (fun _ _ hn => Fin.val_inj.mp hn) |>.mp h)

private theorem orderPoints_eq (as bs : List CodePoint) :
    orderPoints as bs = compare (as.map (·.val)) (bs.map (·.val)) := by
  induction as generalizing bs with
  | nil =>
    cases bs with
    | nil => rfl
    | cons b bs => rfl
  | cons a as ih =>
    cases bs with
    | nil => rfl
    | cons b bs => rw [orderPoints, ih, List.map_cons, List.map_cons, List.compare_cons_cons]

/-- Texts are ordered as the lists of their code points. -/
theorem orderText_eq (a b : LooseText) : orderText a b = compare (codePoints a) (codePoints b) :=
  orderPoints_eq a.points b.points

/-- Texts can be compared with each other. -/
theorem order?_scalar (a b : LooseText) : order? a.scalar b.scalar = some (orderText a b) := by
  cases a <;> cases b <;> rfl

private theorem le_scalar (a b : LooseText) :
    le a.scalar b.scalar = (compare (codePoints a) (codePoints b)).isLE := by
  rw [le, order?_scalar, orderText_eq]
  cases compare (codePoints a) (codePoints b) <;> rfl

/-- The order of texts is transitive. -/
theorem le_scalar_trans {a b c : LooseText} (h : le a.scalar b.scalar = true)
    (h' : le b.scalar c.scalar = true) : le a.scalar c.scalar = true := by
  rw [le_scalar] at h h' ⊢
  exact Std.TransCmp.isLE_trans h h'

/-- Of two texts one comes before the other. -/
theorem le_scalar_total (a b : LooseText) :
    (le a.scalar b.scalar || le b.scalar a.scalar) = true := by
  rw [le_scalar, le_scalar, @Std.OrientedCmp.eq_swap _ compare _ (codePoints b)]
  cases compare (codePoints a) (codePoints b) <;> rfl

/-- Texts that come before each other are equal. -/
theorem le_scalar_antisymm {a b : LooseText} (h : le a.scalar b.scalar = true)
    (h' : le b.scalar a.scalar = true) : a = b := by
  rw [le_scalar] at h h'
  rw [@Std.OrientedCmp.eq_swap _ compare _ (codePoints b)] at h'
  apply codePoints_injective
  apply Std.LawfulEqOrd.eq_of_compare
  cases hc : compare (codePoints a) (codePoints b) with
  | eq => rfl
  | lt => rw [hc] at h'; cases h'
  | gt => rw [hc] at h; cases h

private theorem orderPoints_eq_lt_iff (as bs : List Char) :
    orderPoints (as.map .ofChar) (bs.map .ofChar) = .lt ↔ as < bs := by
  induction as generalizing bs with
  | nil =>
    cases bs with
    | nil => exact ⟨nofun, fun h => absurd h (List.lt_irrefl _)⟩
    | cons b bs => exact ⟨fun _ => List.nil_lt_cons b bs, fun _ => rfl⟩
  | cons a as ih =>
    cases bs with
    | nil => exact ⟨nofun, fun h => absurd h (List.not_lt_nil _)⟩
    | cons b bs =>
      rw [List.map_cons, List.map_cons, orderPoints, List.cons_lt_cons_iff, Ordering.then_eq_lt, ih,
        Nat.compare_eq_lt, Nat.compare_eq_eq, ← Char.toNat_inj]
      rfl

/-- Texts come in the order of strings. -/
theorem lt_text_iff (a b : String) : lt (.text a) (.text b) = true ↔ a < b := by
  rw [lt, order?, beq_iff_eq, Option.some.injEq]
  exact orderPoints_eq_lt_iff a.toList b.toList

/-- Texts can be compared with each other, however many they are. -/
theorem allOrdered_of_words {keys : List Scalar} (h : ∀ k ∈ keys, k.IsWord) :
    allOrdered keys = true := by
  induction keys with
  | nil => rfl
  | cons k rest ih =>
    obtain ⟨s, rfl⟩ := h k List.mem_cons_self
    have hrest := fun k' hk' => h k' (List.mem_cons_of_mem _ hk')
    rw [allOrdered, ih hrest, Bool.and_true, List.all_eq_true]
    intro k' hk'
    obtain ⟨t, rfl⟩ := hrest k' hk'
    rw [order?_scalar]
    rfl

end Scalar

section Sorting

variable {α β : Type} {key : α → Scalar}

private theorem no_nan {items : List α} (h : ∀ x ∈ items, (key x).IsWord) :
    (items.any fun x => key x = .float .nan) = false := by
  rw [List.any_eq_false]
  intro x hx
  obtain ⟨t, ht⟩ := h x hx
  cases t <;> simp [ht, LooseText.scalar]

namespace Sorting

variable (before : α → α → Bool)

private theorem insert_perm (sorted : List α) (x : α) :
    (insert before sorted x).Perm (x :: sorted) := by
  unfold insert
  apply List.perm_middle.trans
  rw [List.take_append_drop]

/-- A run and what stands behind it are the items. -/
theorem run_append (descending : Bool) (previous : α) (items : List α) :
    (run before descending previous items).1 ++ (run before descending previous items).2 =
      items := by
  induction items generalizing previous with
  | nil => rfl
  | cons x rest ih =>
    rw [run]
    split
    · simpa using ih x
    · rfl

private theorem foldl_insert_perm (items sorted : List α) :
    (items.foldl (insert before) sorted).Perm (sorted ++ items) := by
  induction items generalizing sorted with
  | nil => simp
  | cons x rest ih =>
    apply (ih _).trans
    apply ((insert_perm before sorted x).append_right rest).trans
    exact List.perm_middle.symm

/-- Sorting by insertion only permutes the items. -/
theorem byInsertion_perm (items : List α) : (byInsertion before items).Perm items := by
  match items with
  | [] => exact .refl _
  | [x] => exact .refl _
  | first :: second :: rest =>
    unfold byInsertion
    apply (foldl_insert_perm before _ _).trans
    -- The first run is kept or turned round; either way it is followed by what stands behind it.
    have hstart (descending : Bool) (more : List α) :
        (if descending then (first :: more).reverse else first :: more).Perm (first :: more) := by
      split
      · exact List.reverse_perm _
      · exact .refl _
    apply ((hstart _ _).append_right _).trans
    exact .of_eq (congrArg (first :: ·) (run_append before _ first (second :: rest)))

end Sorting

/-- What sorting gives is a permutation, whatever the keys are. -/
theorem sortByKey_perm {items sorted : List α} (h : sortByKey key items = .ok sorted) :
    sorted.Perm items := by
  unfold sortByKey at h
  split at h
  · obtain rfl := Except.ok.inj h
    unfold sortOn
    split
    · exact Sorting.byInsertion_perm _ items
    · exact List.mergeSort_perm items _
  · split at h
    · cases h
    · obtain rfl := Except.ok.inj h
      exact .refl items

/-- Items with texts as keys are sorted by merging. -/
theorem sortOn_of_words {items : List α} (h : ∀ x ∈ items, (key x).IsWord) :
    sortOn key items = items.mergeSort fun a b => (key a).le (key b) := by
  rw [sortOn, no_nan h]
  rfl

/-- Sorting items with texts as keys only permutes them. -/
theorem sortOn_perm {items : List α} (h : ∀ x ∈ items, (key x).IsWord) :
    (sortOn key items).Perm items := by
  rw [sortOn_of_words h]
  exact List.mergeSort_perm _ _

/-- Sorting changes nothing about what is there. -/
theorem mem_sortOn {items : List α} (h : ∀ x ∈ items, (key x).IsWord) {x : α} :
    x ∈ sortOn key items ↔ x ∈ items :=
  (sortOn_perm h).mem_iff

/-- There is nothing to sort in an empty list. -/
theorem sortByKey_nil (key : α → Scalar) : sortByKey key [] = .ok [] := by
  simp [sortByKey, sortOn, Scalar.allOrdered]

/-- Items with texts as keys can be sorted. -/
theorem sortByKey_of_words {items : List α} (h : ∀ x ∈ items, (key x).IsWord) :
    sortByKey key items = .ok (sortOn key items) := by
  have : ∀ k ∈ items.map key, k.IsWord := by
    intro k hk
    obtain ⟨x, hx, rfl⟩ := List.mem_map.mp hk
    exact h x hx
  rw [sortByKey, Scalar.allOrdered_of_words this]
  rfl

-- The order of texts, extended to all scalars: the sorted list is compared on its members only, but
-- the laws of merge sort ask for a total order on everything.
private def before (a b : Scalar) : Bool :=
  match a.word?, b.word? with
  | some s, some t => Scalar.le s.scalar t.scalar
  | some _, none => true
  | none, some _ => false
  | none, none => true

private theorem before_trans (a b c : Scalar) (h : before a b = true) (h' : before b c = true) :
    before a c = true := by
  rw [before] at *
  cases ha : a.word? <;> cases hb : b.word? <;> cases hc : c.word? <;> simp_all
  exact Scalar.le_scalar_trans h h'

private theorem before_total (a b : Scalar) : (before a b || before b a) = true := by
  rw [before, before]
  cases a.word? <;> cases b.word? <;> simp
  simpa using Scalar.le_scalar_total _ _

private theorem sortOn_eq_before {items : List α}
    (h : ∀ x ∈ items, (key x).IsWord) :
    sortOn key items = items.mergeSort fun a b => before (key a) (key b) := by
  have hmap := List.map_mergeSort (r := fun a b => (key a).le (key b))
    (s := fun a b => before (key a) (key b)) (f := id) (l := items) ?_
  · rw [sortOn_of_words h]
    simpa using hmap
  · intro a ha b hb
    obtain ⟨s, hs⟩ := h a ha
    obtain ⟨t, ht⟩ := h b hb
    simp [before, hs, ht, Scalar.word?_scalar]

/-- Items with texts as keys are sorted by their keys. -/
theorem pairwise_sortOn {items : List α} (h : ∀ x ∈ items, (key x).IsWord) :
    (sortOn key items).Pairwise fun a b => (key a).le (key b) = true := by
  have hp : (sortOn key items).Pairwise fun a b => before (key a) (key b) = true := by
    rw [sortOn_eq_before h]
    exact List.pairwise_mergeSort (fun a b c => before_trans (key a) (key b) (key c))
      (fun a b => before_total (key a) (key b)) items
  refine hp.imp_of_mem ?_
  intro a b ha hb hab
  obtain ⟨s, hs⟩ := h a ((mem_sortOn h).mp ha)
  obtain ⟨t, ht⟩ := h b ((mem_sortOn h).mp hb)
  rw [hs, ht] at hab ⊢
  simpa [before, Scalar.word?_scalar] using hab

/-- Sorting keeps the order of items with one key. -/
theorem filter_sortOn {items : List α} (h : ∀ x ∈ items, (key x).IsWord)
    (k : Scalar) :
    (sortOn key items).filter (key · = k) = items.filter (key · = k) := by
  have hrefl (x : α) : before (key x) (key x) = true := by simpa using before_total (key x) (key x)
  have htied : (items.filter (key · = k)).Pairwise fun a b => before (key a) (key b) = true := by
    refine List.pairwise_filter.mpr (List.pairwise_of_forall fun a b ha hb => ?_)
    rw [of_decide_eq_true ha, ← of_decide_eq_true hb]
    exact hrefl b
  have hsub : (items.filter (key · = k)).Sublist (sortOn key items) := by
    rw [sortOn_eq_before h]
    exact List.sublist_mergeSort (fun a b c => before_trans (key a) (key b) (key c))
      (fun a b => before_total (key a) (key b)) htied List.filter_sublist
  have hboth := hsub.filter (key · = k)
  rw [List.filter_filter] at hboth
  simp only [Bool.and_self] at hboth
  exact (hboth.eq_of_length ((sortOn_perm h).symm.filter _).length_eq).symm

end Sorting

section Replaced

variable {α β : Type}

namespace Sorting

variable (before : β → β → Bool) (f : α → β)

private theorem placeOf_map (sorted : List α) (x : α) (fuel low high : Nat) :
    placeOf before (sorted.map f) (f x) fuel low high =
      placeOf (fun a b => before (f a) (f b)) sorted x fuel low high := by
  induction fuel generalizing low high with
  | zero => rfl
  | succ fuel ih =>
    rw [placeOf, placeOf, List.getElem?_map]
    cases sorted[low + (high - low) / 2]? with
    | none => rfl
    | some y => simp only [Option.map_some, ih]

private theorem insert_map (sorted : List α) (x : α) :
    insert before (sorted.map f) (f x) =
      (insert (fun a b => before (f a) (f b)) sorted x).map f := by
  simp only [insert, List.length_map, placeOf_map, List.map_append, List.map_take, List.map_cons,
    List.map_drop]

private theorem run_map (descending : Bool) (first : α) (items : List α) :
    run before descending (f first) (items.map f) =
      ((run (fun a b => before (f a) (f b)) descending first items).1.map f,
        (run (fun a b => before (f a) (f b)) descending first items).2.map f) := by
  induction items generalizing first with
  | nil => rfl
  | cons x rest ih =>
    rw [List.map_cons, run, run]
    split
    · rw [ih]
      rfl
    · rfl

private theorem foldl_insert_map (items sorted : List α) :
    (items.map f).foldl (insert before) (sorted.map f) =
      (items.foldl (insert fun a b => before (f a) (f b)) sorted).map f := by
  induction items generalizing sorted with
  | nil => rfl
  | cons x rest ih => rw [List.map_cons, List.foldl_cons, insert_map, ih, List.foldl_cons]

private theorem byInsertion_map (items : List α) :
    byInsertion before (items.map f) =
      (byInsertion (fun a b => before (f a) (f b)) items).map f := by
  match items with
  | [] => rfl
  | [x] => rfl
  | first :: second :: rest =>
    have hrun := run_map before f (before (f second) (f first)) first (second :: rest)
    rw [List.map_cons] at hrun
    simp only [List.map_cons, byInsertion, hrun, ← foldl_insert_map]
    split <;> simp

end Sorting

/-- Sorting commutes with replacing the items by others with the same keys. -/
theorem sortOn_map (key : β → Scalar) (f : α → β) (items : List α) :
    sortOn key (items.map f) = (sortOn (key ∘ f) items).map f := by
  have hnan : ((items.map f).any fun x => key x = .float .nan) =
      items.any fun x => (key ∘ f) x = .float .nan := List.any_map
  rw [sortOn, sortOn, hnan]
  split
  · exact Sorting.byInsertion_map _ f items
  · rw [List.map_mergeSort]
    exact fun _ _ _ _ => rfl

/-- Items may be changed before or after they are sorted by a key that the change respects. -/
theorem sortByKey_map (key : β → Scalar) (f : α → β) (items : List α) :
    sortByKey key (items.map f) = (sortByKey (key ∘ f) items).map (List.map f) := by
  rw [sortByKey, sortByKey, List.map_map, sortOn_map]
  split
  · rfl
  · match items with
    | [] => rfl
    | [x] => rfl
    | a :: b :: rest => rfl

end Replaced

namespace Table

variable {α β : Type}

/-- Sorting a table by its keys commutes with replacing its values, also by what depends on the
keys. -/
theorem sortOn_map {t : Table α} (ht : Worded t) (f : Scalar → α → β) :
    sortOn Prod.fst (t.map fun e => (e.1, f e.1 e.2)) =
      (sortOn Prod.fst t).map fun e => (e.1, f e.1 e.2) := by
  have ht' : ∀ e ∈ t.map fun e => (e.1, f e.1 e.2), e.1.IsWord := by
    intro e he
    obtain ⟨x, hx, rfl⟩ := List.mem_map.mp he
    exact ht x hx
  rw [sortOn_of_words ht', sortOn_of_words ht, List.map_mergeSort]
  exact fun _ _ _ _ => rfl

/-- Sorting a table by its keys commutes with replacing its values. -/
theorem sortOn_mapValues {t : Table α} (ht : Worded t) (f : α → β) :
    sortOn Prod.fst (mapValues f t) = mapValues f (sortOn Prod.fst t) :=
  sortOn_map ht fun _ => f

/-- Sorting forgets the order of the entries. -/
theorem sortOn_eq_of_perm {t t' : Table α} (ht : Distinct t) (hk : Worded t)
    (h : t.Perm t') : sortOn Prod.fst t = sortOn Prod.fst t' := by
  have hk' : Worded t' := fun e he => hk e (h.mem_iff.mpr he)
  have hp := (sortOn_perm hk).trans (h.trans (sortOn_perm hk').symm)
  refine hp.eq_of_pairwise ?_ (pairwise_sortOn hk) (pairwise_sortOn hk')
  intro a b ha hb hab hba
  have ha := (mem_sortOn hk).mp ha
  have hb := h.mem_iff.mpr ((mem_sortOn hk').mp hb)
  obtain ⟨s, hs⟩ := hk a ha
  obtain ⟨s', hs'⟩ := hk b hb
  rw [hs, hs'] at hab hba
  have hkey : a.1 = b.1 := by rw [hs, hs', Scalar.le_scalar_antisymm hab hba]
  have hfa := find?_of_mem ht (k := a.1) (v := a.2) ha (Scalar.same_refl _)
  have hfb := find?_of_mem ht (k := b.1) (v := b.2) hb (Scalar.same_refl _)
  rw [hkey, hfb] at hfa
  exact Prod.ext hkey (Option.some.inj hfa).symm

/-- A table is sorted into the permutation of it whose keys are in order. -/
theorem sortOn_eq_of_pairwise {t s : Table α} (ht : Distinct t) (hk : Worded t) (h : t.Perm s)
    (hs : s.Pairwise fun a b => a.1.le b.1 = true) : sortOn Prod.fst t = s := by
  have hk' : Worded s := fun e he => hk e (h.mem_iff.mpr he)
  rw [sortOn_eq_of_perm ht hk h, sortOn_of_words hk']
  exact List.mergeSort_of_pairwise hs

/-- Tables with texts as keys are sorted alike if their look-ups agree. -/
theorem sortOn_eq_of_find? {t t' : Table α} (ht : Distinct t) (ht' : Distinct t')
    (hk : Worded t) (hk' : Worded t') (h : ∀ key, find? t key = find? t' key) :
    sortOn Prod.fst t = sortOn Prod.fst t' :=
  sortOn_eq_of_perm ht hk (perm_of_find? ht ht' hk hk' h)

/-- Tables with the same keys have them in one order when sorted. -/
theorem keys_sortOn_eq {t : Table α} {t' : Table β} (ht : Distinct t) (ht' : Distinct t')
    (hk : Worded t) (hk' : Worded t') (h : ∀ key, has t key = has t' key) :
    keys (sortOn Prod.fst t) = keys (sortOn Prod.fst t') := by
  have hforget {γ : Type} {u : Table γ} (hu : Worded u) : keys (sortOn Prod.fst u) =
      keys (sortOn Prod.fst (mapValues (fun _ => ()) u)) := by
    rw [sortOn_mapValues hu, keys, keys, mapValues, List.map_map]
    rfl
  rw [hforget hk, hforget hk', sortOn_eq_of_find? (ht.mapValues _) (ht'.mapValues _)
    (hk.mapValues _) (hk'.mapValues _)]
  intro key
  have hkey : (find? t key).isSome = (find? t' key).isSome := h key
  rw [find?_mapValues, find?_mapValues]
  revert hkey
  cases find? t key <;> cases find? t' key <;> simp

/-- Keys of a table in order, of which no two are the same, increase. -/
theorem pairwise_lt_keys_sortOn {t : Table α} (hd : Distinct t)
    (hk : Worded t) :
    (keys (sortOn Prod.fst t)).Pairwise fun a b => a.lt b = true := by
  have hperm := sortOn_perm hk
  rw [keys, List.pairwise_map]
  refine ((pairwise_sortOn hk).and (hd.perm hperm.symm)).imp_of_mem fun {a b} ha hb hab => ?_
  obtain ⟨x, hx⟩ := hk a (hperm.mem_iff.mp ha)
  obtain ⟨y, hy⟩ := hk b (hperm.mem_iff.mp hb)
  obtain ⟨hle, hne⟩ := hab
  rw [hx, hy] at hle hne ⊢
  rw [Scalar.lt, beq_iff_eq]
  rw [Scalar.order?_scalar, Option.some.injEq]
  cases ho : Scalar.orderText x y with
  | lt => rfl
  | gt =>
    rw [Scalar.le, Scalar.order?_scalar, ho] at hle
    cases hle
  | eq =>
    have hge : Scalar.le y.scalar x.scalar = true := by
      rw [Scalar.orderText_eq] at ho
      rw [Scalar.le_scalar, @Std.OrientedCmp.eq_swap _ compare _ (Scalar.codePoints y), ho]
      rfl
    rw [Scalar.le_scalar_antisymm hle hge, Scalar.same_refl] at hne
    cases hne

end Table
end BindGen

/-!
## Sorting with ties

Items whose keys are texts may share a key. Sorting keeps the order of those that do, so that what a
list is sorted into tells, and is told by, the order of the items of each key.
-/

namespace BindGen

variable {α : Type} {key : α → Scalar}

/-- Keys that come before each other are one key. -/
theorem le_antisymm_of_words {a b : Scalar} (ha : a.IsWord) (hb : b.IsWord) (h : a.le b = true)
    (h' : b.le a = true) : a = b := by
  obtain ⟨s, rfl⟩ := ha
  obtain ⟨t, rfl⟩ := hb
  rw [Scalar.le_scalar_antisymm h h']

/-- Items in the order of their keys are told by those of each key. -/
theorem eq_of_filter_eq {l l' : List α} (hk : ∀ x ∈ l, (key x).IsWord)
    (hk' : ∀ x ∈ l', (key x).IsWord)
    (hs : l.Pairwise fun a b => (key a).le (key b) = true)
    (hs' : l'.Pairwise fun a b => (key a).le (key b) = true)
    (h : ∀ k, l.filter (key · = k) = l'.filter (key · = k)) : l = l' := by
  have hmem {l l' : List α} (h : ∀ k, l.filter (key · = k) = l'.filter (key · = k)) {x : α}
      (hx : x ∈ l) : x ∈ l' := by
    have hx : x ∈ l.filter (key · = key x) := List.mem_filter.mpr ⟨hx, decide_eq_true rfl⟩
    rw [h] at hx
    exact (List.mem_filter.mp hx).1
  have hfirst {x y : α} {l : List α} (hs : (x :: l).Pairwise fun a b => (key a).le (key b) = true)
      (hk : (key x).IsWord) (hy : y ∈ x :: l) : (key x).le (key y) = true := by
    rcases List.mem_cons.mp hy with rfl | hy
    · obtain ⟨s, hs⟩ := hk
      rw [hs]
      simpa using Scalar.le_scalar_total s s
    · exact (List.pairwise_cons.mp hs).1 y hy
  induction l generalizing l' with
  | nil =>
    refine (List.eq_nil_iff_forall_not_mem.mpr fun x hx => ?_).symm
    exact List.not_mem_nil (hmem (fun k => (h k).symm) hx)
  | cons x l ih =>
    cases l' with
    | nil => exact absurd (hmem h List.mem_cons_self) List.not_mem_nil
    | cons y l' =>
      have hkx := hk x List.mem_cons_self
      have hky := hk' y List.mem_cons_self
      have hxy : key x = key y := le_antisymm_of_words hkx hky
        (hfirst hs hkx (hmem (fun k => (h k).symm) List.mem_cons_self))
        (hfirst hs' hky (hmem h List.mem_cons_self))
      have hhead := h (key x)
      simp only [List.filter_cons, ← hxy, decide_true, if_true] at hhead
      obtain ⟨rfl, -⟩ := List.cons.inj hhead
      refine congrArg (x :: ·) (ih (fun a ha => hk a (List.mem_cons_of_mem x ha))
        (fun a ha => hk' a (List.mem_cons_of_mem x ha)) (List.pairwise_cons.mp hs).2
        (List.pairwise_cons.mp hs').2 fun k => ?_)
      by_cases hx : key x = k <;> simpa [List.filter_cons, hx] using h k

/-- Lists are sorted alike exactly if the items of each key come in one order. -/
theorem sortOn_eq_iff {items items' : List α} (h : ∀ x ∈ items, (key x).IsWord)
    (h' : ∀ x ∈ items', (key x).IsWord) :
    sortOn key items = sortOn key items' ↔
      ∀ k, items.filter (key · = k) = items'.filter (key · = k) := by
  constructor
  · intro hsorted k
    rw [← filter_sortOn h, ← filter_sortOn h', hsorted]
  · intro htied
    refine eq_of_filter_eq (fun x hx => h x ((mem_sortOn h).mp hx))
      (fun x hx => h' x ((mem_sortOn h').mp hx)) (pairwise_sortOn h) (pairwise_sortOn h')
      fun k => ?_
    rw [filter_sortOn h, filter_sortOn h', htied]

/-- A permutation of a list has its keys in the same order when sorted. -/
theorem map_sortOn_eq_of_perm {items items' : List α}
    (h : ∀ x ∈ items, (key x).IsWord) (hp : items.Perm items') :
    (sortOn key items).map key = (sortOn key items').map key := by
  have h' : ∀ x ∈ items', (key x).IsWord := fun x hx => h x (hp.mem_iff.mpr hx)
  have hperm := (((sortOn_perm h).trans hp).trans (sortOn_perm h').symm).map key
  have hsorted {l : List α} (hl : ∀ x ∈ l, (key x).IsWord) :
      ((sortOn key l).map key).Pairwise fun a b => a.le b = true :=
    List.pairwise_map.mpr (pairwise_sortOn hl)
  have htext {l : List α} (hl : ∀ x ∈ l, (key x).IsWord) {k : Scalar}
      (hk : k ∈ (sortOn key l).map key) : k.IsWord := by
    obtain ⟨x, hx, rfl⟩ := List.mem_map.mp hk
    exact hl x ((mem_sortOn hl).mp hx)
  exact hperm.eq_of_pairwise (fun a b ha hb => le_antisymm_of_words (htext h ha) (htext h' hb))
    (hsorted h) (hsorted h')

end BindGen

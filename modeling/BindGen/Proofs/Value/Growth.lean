import BindGen.Proofs.Settings.Paths
import BindGen.Proofs.Value.Labels

/-!
# Values that grow

A value with links is looked into step by step: by a key into a table, by a place into a list or a
pair. It grows if tables gain keys and nothing else changes: a step that leads somewhere goes on
leading there, and what is no table is the very same value. Growth is told by a relation between the
values of an earlier and a later time that every step respects; such relations compose, so growth is
shown for one write at a time.
-/

namespace BindGen

namespace Value

/-- A step into a value. -/
inductive Step where
  | key (k : Scalar)
  | place (n : Nat)

/-- What is seen of a value without looking into it. -/
inductive Form where
  | scalar (s : Scalar)
  | list (length : Nat)
  | pair
  | set (members : List Scalar)
  | table
  | link (label : Nat)

/-- The form of a value. -/
def form : Value → Form
  | scalar s => .scalar s
  | list items => .list items.length
  | pair _ _ => .pair
  | set members => .set members
  | table _ => .table
  | link label _ => .link label

/-- The parts of a value that stand at places and not under keys. -/
def places : Value → List Value
  | list items => items
  | pair a b => [a, b]
  | _ => []

variable {v : Value} {t : Table Value}

/-- A value that is a table is made from one. -/
theorem eq_table_of_isTable (h : v.isTable = true) : ∃ t, v = table t := by
  cases v with
  | table t => exact ⟨t, rfl⟩
  | _ => cases h

/-- A value holds the table that it is made from. -/
theorem table?_eq_some_iff : v.table? = some t ↔ v = table t := by
  cases v <;> simp [table?]

/-- A value is no table where it holds none. -/
theorem isTable_eq_false_iff : v.isTable = false ↔ v.table? = none := by
  cases v <;> simp [isTable, table?]

/-- The labels of the parts of a value satisfy what those of the value do. -/
theorem Labels.of_places {P : Nat → Prop} (h : Labels P v) : ∀ x ∈ v.places, Labels P x := by
  cases h with
  | list hitems => exact hitems
  | pair ha hb =>
    intro x hx
    rcases List.mem_pair.mp hx with rfl | rfl
    · exact ha
    · exact hb
  | _ => exact fun _ hx => absurd hx List.not_mem_nil

/-- With other values in place of links, the keys stay pairwise different if those of these are. -/
theorem Keyed.mapLinks (h : Keyed v) {f : Nat → PartKind → Value}
    (hf : ∀ label kind, Keyed (f label kind)) : Keyed (v.mapLinks f) := by
  induction h with
  | @other v hno =>
    cases v with
    | link label kind => exact hf label kind
    | table t => cases hno
    | _ => exact .other rfl
  | table hd _ ih =>
    rw [Value.mapLinks, Labels.mapLinksEntries_eq]
    refine .table (hd.mapValues _) fun e he => ?_
    obtain ⟨x, hx, rfl⟩ := List.mem_map.mp he
    exact ih x hx

end Value

namespace Links

open Value

variable {l l' l'' : Links} {R R' : Value → Value → Prop} {v v' w x : Value} {steps : List Step}

/-- Links are resolved to tables with pairwise different keys if they stand for such. -/
theorem keyed_resolve (hl : ∀ label, Keyed (l.content label)) (hv : Keyed v) :
    Keyed (l.resolve v) := by
  have hwithin (depth : Nat) : ∀ {around : List Nat} {v : Value}, Keyed v →
      Keyed (l.resolveWithin depth around v) := by
    induction depth with
    | zero => exact fun hv => hv
    | succ depth ih =>
      intro around v hv
      rw [resolveWithin]
      refine hv.mapLinks fun label kind => ?_
      split
      · exact .other rfl
      · exact ih (hl label)
  rw [resolve]
  split
  · exact hv
  · exact hwithin _ hv

/-- What a step from a value leads to. -/
def child? (l : Links) (v : Value) : Step → Option Value
  | .key k => (l.held v).table?.bind (Table.find? · k)
  | .place n => (l.held v).places[n]?

/-- What steps from a value lead to. -/
def at? (l : Links) (v : Value) (steps : List Step) : Option Value := steps.foldlM l.child? v

/-- A path is followed step by step. -/
@[simp] theorem at?_cons (l : Links) (v : Value) (s : Step) (steps : List Step) :
    l.at? v (s :: steps) = (l.child? v s).bind fun w => l.at? w steps := rfl

/-- Nothing can be seen that tells two values apart, however far one looks into them. -/
def Alike (l : Links) (v : Value) (l' : Links) (v' : Value) : Prop :=
  ∀ steps, (l.at? v steps).map (fun x => (l.held x).form) =
    (l'.at? v' steps).map fun x => (l'.held x).form

/-! ## Relations that steps respect -/

/-- A relation between the values of an earlier and a later time under which tables keep their keys
and everything else is the same. -/
structure Growth (l l' : Links) (R : Value → Value → Prop) : Prop where
  table : ∀ {v v' t}, R v v' → l.held v = .table t → ∃ t', l'.held v' = .table t' ∧
    ∀ k x, Table.find? t k = some x → ∃ x', Table.find? t' k = some x' ∧ R x x'
  fixed : ∀ {v v'}, R v v' → (l.held v).isTable = false → v' = v ∧ l'.held v = l.held v
  inner : ∀ {v v'}, R v v' → (l.held v).isTable = false → ∀ x ∈ (l.held v).places, R x x

namespace Growth

private theorem refl (l : Links) : Growth l l (· = ·) where
  table := by
    rintro v _ t rfl ht
    exact ⟨t, ht, fun k x hx => ⟨x, hx, rfl⟩⟩
  fixed := by
    rintro v _ rfl -
    exact ⟨rfl, rfl⟩
  inner _ _ _ _ := rfl

private theorem trans (h : Growth l l' R) (h' : Growth l' l'' R') :
    Growth l l'' fun v v'' => ∃ v', R v v' ∧ R' v' v'' where
  table := by
    rintro v v'' t ⟨v', hv, hv'⟩ ht
    obtain ⟨t', ht', hkeys⟩ := h.table hv ht
    obtain ⟨t'', ht'', hkeys'⟩ := h'.table hv' ht'
    refine ⟨t'', ht'', fun k x hx => ?_⟩
    obtain ⟨x', hx', hr⟩ := hkeys k x hx
    obtain ⟨x'', hx'', hr'⟩ := hkeys' k x' hx'
    exact ⟨x'', hx'', x', hr, hr'⟩
  fixed := by
    rintro v v'' ⟨v', hv, hv'⟩ hno
    obtain ⟨rfl, hheld⟩ := h.fixed hv hno
    obtain ⟨rfl, hheld'⟩ := h'.fixed hv' (hheld ▸ hno)
    exact ⟨rfl, hheld'.trans hheld⟩
  inner := by
    rintro v v'' ⟨v', hv, hv'⟩ hno x hx
    obtain ⟨rfl, hheld⟩ := h.fixed hv hno
    rw [← hheld] at hno
    exact ⟨x, h.inner hv (hheld ▸ hno) x hx, h'.inner hv' hno x (hheld ▸ hx)⟩

/-- A table and a later one that has all its keys can be taken in. -/
theorem insert (h : Growth l l' R) {t t' : Table Value} (ht : l.held v = .table t)
    (ht' : l'.held v' = .table t')
    (hkeys : ∀ k x, Table.find? t k = some x → ∃ x', Table.find? t' k = some x' ∧ R x x') :
    Growth l l' fun w w' => R w w' ∨ (w = v ∧ w' = v') where
  table := by
    rintro w w' u (hr | ⟨rfl, rfl⟩) hu
    · obtain ⟨u', hu', hchildren⟩ := h.table hr hu
      refine ⟨u', hu', fun k x hx => ?_⟩
      obtain ⟨x', hx', hr'⟩ := hchildren k x hx
      exact ⟨x', hx', .inl hr'⟩
    · obtain rfl : t = u := by simpa using ht.symm.trans hu
      refine ⟨t', ht', fun k x hx => ?_⟩
      obtain ⟨x', hx', hr'⟩ := hkeys k x hx
      exact ⟨x', hx', .inl hr'⟩
  fixed := by
    rintro w w' (hr | ⟨rfl, rfl⟩) hno
    · exact h.fixed hr hno
    · rw [ht] at hno
      cases hno
  inner := by
    rintro w w' (hr | ⟨rfl, rfl⟩) hno x hx
    · exact .inl (h.inner hr hno x hx)
    · rw [ht] at hno
      cases hno

/-- Steps that lead somewhere lead to what has become of it. -/
theorem at? (h : Growth l l' R) (hr : R v v') (hx : l.at? v steps = some x) :
    ∃ x', l'.at? v' steps = some x' ∧ R x x' := by
  induction steps generalizing v v' with
  | nil =>
    obtain rfl : v = x := Option.some.inj hx
    exact ⟨v', rfl, hr⟩
  | cons s steps ih =>
    rw [at?_cons] at hx ⊢
    obtain ⟨w, hw, hx⟩ := Option.bind_eq_some_iff.mp hx
    have hstep : ∃ w', l'.child? v' s = some w' ∧ R w w' := by
      cases htable : (l.held v).isTable with
      | true =>
        obtain ⟨t, ht⟩ := eq_table_of_isTable htable
        obtain ⟨t', ht', hkeys⟩ := h.table hr ht
        cases s with
        | key k =>
          rw [child?, ht] at hw
          rw [child?, ht']
          exact hkeys k w hw
        | place n =>
          rw [child?, ht] at hw
          cases hw
      | false =>
        obtain ⟨rfl, hheld⟩ := h.fixed hr htable
        cases s with
        | key k =>
          rw [child?, isTable_eq_false_iff.mp htable] at hw
          cases hw
        | place n =>
          rw [child?] at hw ⊢
          rw [hheld]
          exact ⟨w, hw, h.inner hr htable w (List.mem_of_getElem? hw)⟩
    obtain ⟨w', hw', hr'⟩ := hstep
    obtain ⟨x', hx', hr''⟩ := ih hr' hx
    exact ⟨x', by rw [hw']; exact hx', hr''⟩

/-- What has become of a value has its form. -/
theorem form_eq (h : Growth l l' R) (hr : R v v') : (l'.held v').form = (l.held v).form := by
  cases htable : (l.held v).isTable with
  | true =>
    obtain ⟨t, ht⟩ := eq_table_of_isTable htable
    obtain ⟨t', ht', -⟩ := h.table hr ht
    rw [ht, ht']
    rfl
  | false =>
    obtain ⟨rfl, hheld⟩ := h.fixed hr htable
    rw [hheld]

/-- What has become of a value looks the same exactly if nothing in it has gained a key. -/
theorem alike_iff (h : Growth l l' R) (hr : R v v') :
    l.Alike v l' v' ↔ ∀ steps, (l'.at? v' steps).isSome → (l.at? v steps).isSome := by
  constructor
  · intro halike steps hsome
    have hsame := congrArg Option.isSome (halike steps)
    rw [Option.isSome_map, Option.isSome_map] at hsame
    rw [hsame]
    exact hsome
  · intro hgain steps
    cases hx : l.at? v steps with
    | some x =>
      obtain ⟨x', hx', hr'⟩ := h.at? hr hx
      rw [hx', Option.map_some, Option.map_some, h.form_eq hr']
    | none =>
      have hnone : l'.at? v' steps = none := by
        rw [← Option.not_isSome_iff_eq_none]
        intro hsome
        have := hgain steps hsome
        rw [hx] at this
        cases this
      rw [hnone]
      rfl

end Growth

/-! ## Growth from one write to the next -/

/-- A value has grown into a later one, and all other values into themselves. -/
structure Grown (l : Links) (v : Value) (l' : Links) (v' : Value) : Prop where
  size : l.size ≤ l'.size
  closed : l'.Closed
  bounded : Bounded l'.size v'
  growth : ∃ R, Growth l l' R ∧ (∀ x, Bounded l.size x → R x x) ∧ R v v'

namespace Grown

/-- A value has grown against itself. -/
theorem refl (hl : l.Closed) (hv : Bounded l.size v) : Grown l v l v :=
  ⟨Nat.le_refl _, hl, hv, (· = ·), .refl l, fun _ _ => rfl, rfl⟩

/-- Growth after growth is growth. -/
theorem trans {v'' : Value} (h : Grown l v l' v') (h' : Grown l' v' l'' v'') :
    Grown l v l'' v'' := by
  obtain ⟨R, hgrowth, hself, hr⟩ := h.growth
  obtain ⟨R', hgrowth', hself', hr'⟩ := h'.growth
  refine ⟨Nat.le_trans h.size h'.size, h'.closed, h'.bounded, _, hgrowth.trans hgrowth', ?_, v', hr,
    hr'⟩
  exact fun x hx => ⟨x, hself x hx, hself' x (hx.mono h.size)⟩

/-- While one value grows all others do. -/
theorem other (h : Grown l v l' v') (hx : Bounded l.size x) : Grown l x l' x := by
  obtain ⟨R, hgrowth, hself, -⟩ := h.growth
  exact ⟨h.size, h.closed, hx.mono h.size, R, hgrowth, hself, hself x hx⟩

/-- A table grows if it has all keys later, with a value that has grown under some of them. -/
theorem insert {old new : Value} {t u : Table Value} (h : Grown l old l' new)
    (hv : l.held v = .table t) (ht : Bounded l.size (.table t)) (hw : l'.held w = .table u)
    (hb : Bounded l'.size w)
    (hkeys : ∀ k x, Table.find? t k = some x →
      Table.find? u k = some x ∨ (x = old ∧ Table.find? u k = some new)) :
    Grown l v l' w := by
  obtain ⟨R, hgrowth, hself, hr⟩ := h.growth
  have hinsert := hgrowth.insert hv hw fun k x hx => by
    rcases hkeys k x hx with hx' | ⟨rfl, hx'⟩
    · exact ⟨x, hx', hself x (ht.of_find? hx)⟩
    · exact ⟨new, hx', hr⟩
  exact ⟨h.size, h.closed, hb, _, hinsert, fun x hx => .inl (hself x hx), .inr ⟨rfl, rfl⟩⟩

/-- A table grows when an absent key is put into it. -/
theorem put_absent {t : Table Value} {k : Scalar} (hl : l.Closed) (ht : Bounded l.size (.table t))
    (hk : Table.find? t k = none) (hv : Bounded l.size v) :
    Grown l (.table t) l (.table (Table.put t k v)) := by
  refine (refl hl (.scalar .null)).insert rfl ht rfl (ht.put k hv) fun k' x hx => .inl ?_
  rw [Table.find?_put, if_neg]
  · exact hx
  · intro hsame
    rw [← Table.find?_congr hsame, hk] at hx
    cases hx

/-- A table grows by a value that is put where it is missing. -/
theorem putNew {t : Table Value} (k : Scalar) (hl : l.Closed) (ht : Bounded l.size (.table t))
    (hv : Bounded l.size v) : Grown l (.table t) l (.table (Table.putNew t k v)) := by
  rw [Table.putNew]
  split
  · exact refl hl ht
  · next hhas =>
    rw [Bool.not_eq_true, Table.has, Option.isSome_eq_false_iff, Option.isNone_iff_eq_none] at hhas
    exact put_absent hl ht hhas hv

/-- A table grows with the value under one of its keys. -/
theorem put_grown {old new : Value} {t : Table Value} {k : Scalar} (h : Grown l old l' new)
    (ht : Bounded l.size (.table t)) (hk : Table.find? t k = some old) :
    Grown l (.table t) l' (.table (Table.put t k new)) := by
  refine h.insert rfl ht rfl ((ht.mono h.size).put k h.bounded) fun k' x hx => ?_
  rw [Table.find?_put]
  split
  · next hsame =>
    rw [← Table.find?_congr hsame, hk] at hx
    exact .inr ⟨(Option.some.inj hx).symm, rfl⟩
  · exact .inl hx

end Grown

/-- Whatever steps from a value lead to they lead to later: to the very same value if it is no
table, and to a table if it is one. What is no table looks the same exactly if nothing in it has
gained a key, and always if it has no links. -/
structure Kept (l : Links) (v : Value) (l' : Links) (v' : Value) : Prop where
  value : ∀ steps x, l.at? v steps = some x → (l.held x).isTable = false →
    l'.at? v' steps = some x ∧ l'.held x = l.held x
  table : ∀ steps x, l.at? v steps = some x → (l.held x).isTable = true →
    ∃ x', l'.at? v' steps = some x' ∧ (l'.held x').isTable = true
  alike : ∀ steps x, l.at? v steps = some x → (l.held x).isTable = false →
    (l.Alike x l' x ↔ ∀ deeper, (l'.at? x deeper).isSome → (l.at? x deeper).isSome)
  plain : ∀ steps x, l.at? v steps = some x → Bounded 0 x → l.Alike x l' x

/-- A value without links holds itself. -/
theorem held_of_bounded (l : Links) (hx : Bounded 0 x) : l.held x = x := by
  cases hx with
  | link kind hlabel => exact absurd hlabel (Nat.not_lt_zero _)
  | _ => rfl

/-- What links stand for does not matter in a value without links. -/
theorem alike_of_bounded (l l' : Links) (hx : Bounded 0 x) : l.Alike x l' x := by
  have hsteps (steps : List Step) : ∀ {x : Value}, Bounded 0 x → l.at? x steps = l'.at? x steps ∧
      ∀ y, l.at? x steps = some y → Bounded 0 y := by
    induction steps with
    | nil =>
      intro x hx
      refine ⟨rfl, fun y hy => ?_⟩
      obtain rfl : x = y := Option.some.inj hy
      exact hx
    | cons s steps ih =>
      intro x hx
      have hchild : l.child? x s = l'.child? x s := by
        cases s <;> simp only [child?, held_of_bounded _ hx]
      have hbounded : ∀ w, l.child? x s = some w → Bounded 0 w := by
        intro w hw
        cases s with
        | key k =>
          rw [child?, held_of_bounded l hx] at hw
          obtain ⟨t, ht, hw⟩ := Option.bind_eq_some_iff.mp hw
          obtain rfl := table?_eq_some_iff.mp ht
          exact hx.of_find? hw
        | place n =>
          rw [child?, held_of_bounded l hx] at hw
          exact hx.of_places w (List.mem_of_getElem? hw)
      rw [at?_cons, at?_cons, ← hchild]
      cases hw : l.child? x s with
      | none => exact ⟨rfl, nofun⟩
      | some w => exact ih (hbounded w hw)
  intro steps
  obtain ⟨hsame, hbounded⟩ := hsteps steps hx
  rw [← hsame]
  cases hy : l.at? x steps with
  | none => rfl
  | some y =>
    have hy := hbounded y hy
    rw [Option.map_some, Option.map_some, held_of_bounded l hy, held_of_bounded l' hy]

/-- What has grown is kept. -/
theorem Grown.kept (h : Grown l v l' v') : Kept l v l' v' := by
  obtain ⟨R, hgrowth, -, hr⟩ := h.growth
  refine ⟨fun steps x hx hno => ?_, fun steps x hx htable => ?_, fun steps x hx hno => ?_,
    fun _ x _ hb => alike_of_bounded l l' hb⟩
  · obtain ⟨x', hx', hr'⟩ := hgrowth.at? hr hx
    obtain ⟨rfl, hheld⟩ := hgrowth.fixed hr' hno
    exact ⟨hx', hheld⟩
  · obtain ⟨x', hx', hr'⟩ := hgrowth.at? hr hx
    obtain ⟨t, ht⟩ := eq_table_of_isTable htable
    obtain ⟨t', ht', -⟩ := hgrowth.table hr' ht
    exact ⟨x', hx', by rw [ht']; rfl⟩
  · obtain ⟨x', -, hr'⟩ := hgrowth.at? hr hx
    obtain ⟨rfl, -⟩ := hgrowth.fixed hr' hno
    exact hgrowth.alike_iff hr'

/-! ## Growth of what links stand for -/

/-- All values grow if what links stand for stays or is a table that grows. Under some keys there
may be another way to write the same table. -/
theorem grown_of_contents (hl : l.Closed) (hl' : l'.Closed) (hsize : l.size ≤ l'.size)
    (Same : Value → Value → Prop)
    (hsame : ∀ x x', Same x x' → ∃ t, l.held x = .table t ∧ l'.held x' = .table t)
    (hcontent : ∀ label < l.size, l'.content label = l.content label ∨
      ∃ t t', l.content label = .table t ∧ l'.content label = .table t' ∧
        ∀ k x, Table.find? t k = some x →
          ∃ x', Table.find? t' k = some x' ∧ (x' = x ∨ Same x x')) :
    Grown l .null l' .null := by
  have hgrowth : Growth l l' fun x x' => Bounded l.size x ∧ (x' = x ∨ Same x x') := by
    have hheld {x : Value} (hx : Bounded l.size x) : l'.held x = l.held x ∨
        ∃ t t', l.held x = .table t ∧ l'.held x = .table t' ∧
          ∀ k y, Table.find? t k = some y →
            ∃ y', Table.find? t' k = some y' ∧ (y' = y ∨ Same y y') := by
      cases hx with
      | link kind hlabel => exact hcontent _ hlabel
      | _ => exact .inl rfl
    refine ⟨?_, ?_, ?_⟩
    · rintro x x' t ⟨hx, hr⟩ ht
      have hchild {k : Scalar} {y : Value} (hy : Table.find? t k = some y) : Bounded l.size y :=
        (ht ▸ hl.held hx).of_find? hy
      rcases hr with rfl | hs
      · rcases hheld hx with heq | ⟨u, u', hu, hu', hkeys⟩
        · exact ⟨t, heq.trans ht, fun k y hy => ⟨y, hy, hchild hy, .inl rfl⟩⟩
        · obtain rfl : t = u := by simpa using ht.symm.trans hu
          refine ⟨u', hu', fun k y hy => ?_⟩
          obtain ⟨y', hy', hr⟩ := hkeys k y hy
          exact ⟨y', hy', hchild hy, hr⟩
      · obtain ⟨u, hu, hu'⟩ := hsame x x' hs
        obtain rfl : t = u := by simpa using ht.symm.trans hu
        exact ⟨t, hu', fun k y hy => ⟨y, hy, hchild hy, .inl rfl⟩⟩
    · rintro x x' ⟨hx, hr⟩ hno
      rcases hr with rfl | hs
      · rcases hheld hx with heq | ⟨u, u', hu, -⟩
        · exact ⟨rfl, heq⟩
        · rw [hu] at hno
          cases hno
      · obtain ⟨u, hu, -⟩ := hsame x x' hs
        rw [hu] at hno
        cases hno
    · rintro x x' ⟨hx, -⟩ - y hy
      exact ⟨(hl.held hx).of_places y hy, .inl rfl⟩
  exact ⟨hsize, hl', .scalar .null, _, hgrowth, fun x hx => ⟨hx, .inl rfl⟩, .scalar .null, .inl rfl⟩

end Links
end BindGen

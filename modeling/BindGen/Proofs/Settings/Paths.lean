import BindGen.Proofs.Value.Table
import BindGen.Settings.Merge

/-!
# Merging along key paths

A path of keys leads through tables to a value. A value leaves a path open if the path ends in a key
that a table on the way lacks. Overlaying decides along each path by itself: the source wins where
it has a value, and the target shows where the source leaves the path open. Filling never changes a
value that is no table.
-/

namespace BindGen

namespace Value

/-- Whether a value is a table. -/
def isTable : Value → Bool
  | table _ => true
  | _ => false

/-- The value that a path of keys leads to. -/
def at? : Value → List Scalar → Option Value
  | v, [] => some v
  | table t, key :: path =>
    match Table.find? t key with
    | some v => at? v path
    | none => none
  | _, _ :: _ => none

/-- Whether a path leads through tables up to a key that the last of them lacks. -/
def leavesOpen : Value → List Scalar → Bool
  | table t, key :: path =>
    match Table.find? t key with
    | some v => leavesOpen v path
    | none => true
  | _, _ => false

/-- The keys of a table are pairwise different, and so are those of the tables in it. -/
inductive Keyed : Value → Prop where
  | table {t : Table Value} : Table.Distinct t → (∀ e ∈ t, Keyed e.2) → Keyed (table t)
  | other {v : Value} : v.isTable = false → Keyed v

namespace Keyed

variable {t : Table Value}

/-- A keyed table has no key twice. -/
theorem distinct (h : Keyed (.table t)) : Table.Distinct t := by
  cases h with
  | table hd _ => exact hd
  | other h => cases h

/-- The entries of a keyed table are keyed. -/
theorem of_mem (h : Keyed (.table t)) {e : Scalar × Value} (he : e ∈ t) : Keyed e.2 := by
  cases h with
  | table _ ht => exact ht e he
  | other h => cases h

/-- What a keyed table has under a key is keyed. -/
theorem of_find? (h : Keyed (.table t)) {key : Scalar} {v : Value}
    (hv : Table.find? t key = some v) : Keyed v := by
  obtain ⟨k, hm, -⟩ := Table.mem_of_find? hv
  exact h.of_mem hm

/-- A keyed table is keyed without its first entry. -/
theorem tail {e : Scalar × Value} (h : Keyed (.table (e :: t))) : Keyed (.table t) :=
  .table (List.pairwise_cons.mp h.distinct).2 fun _ he => h.of_mem (List.mem_cons_of_mem e he)

/-- The empty table is keyed. -/
theorem empty : Keyed (.table []) := .table Table.distinct_nil (by simp)

/-- A keyed table stays keyed with a keyed value put into it. -/
theorem put (h : Keyed (.table t)) (key : Scalar) {v : Value} (hv : Keyed v) :
    Keyed (.table (Table.put t key v)) := by
  refine .table (Table.distinct_put h.distinct key v) fun e he => ?_
  rcases Table.snd_of_mem_put he with rfl | he
  · exact hv
  · exact h.of_mem he

/-- A part of a keyed table is keyed. -/
theorem filter (h : Keyed (.table t)) (p : Scalar × Value → Bool) : Keyed (.table (t.filter p)) :=
  .table (h.distinct.filter p) fun _ he => h.of_mem (List.mem_filter.mp he).1

end Keyed
end Value

namespace Settings

open Value

/-- What filling leaves of a value for one under the same key of the source. -/
def filled : Value → Value → Value
  | .table inner, v => fillInto inner v
  | old, _ => old

/-- What overlaying makes of a value for one under the same key of the source. -/
def overlaid : Value → Value → Value
  | .table inner, v => overlayOn inner v
  | _, v => v

variable {t source : Table Value}

-- A merge that goes through the source entry by entry merges under each key.
private theorem find?_merge {merge : Table Value → Table Value → Table Value}
    {f : Option Value → Value → Value} (hnil : ∀ t, merge t [] = t)
    (hcons : ∀ t k v rest, ∃ t', merge t ((k, v) :: rest) = merge t' rest ∧
      ∀ key, Table.find? t' key =
        if k.same key then some (f (Table.find? t k) v) else Table.find? t key)
    (hd : Table.Distinct source) (key : Scalar) :
    Table.find? (merge t source) key =
      match Table.find? source key with
      | some v => some (f (Table.find? t key) v)
      | none => Table.find? t key := by
  induction source generalizing t with
  | nil => rw [hnil, Table.find?_nil]
  | cons e rest ih =>
    obtain ⟨k, v⟩ := e
    obtain ⟨hk, hrest⟩ := List.pairwise_cons.mp hd
    obtain ⟨t', ht', hfind⟩ := hcons t k v rest
    rw [ht', ih hrest, hfind, Table.find?]
    by_cases hkey : k.same key = true
    · have hnone : Table.find? rest key = none := by
        rw [Table.find?_eq_none_iff]
        intro e he
        rw [Scalar.same_comm, ← Scalar.same_congr_left hkey]
        exact hk e he
      rw [if_pos hkey, if_pos hkey, hnone, Table.find?_congr hkey]
    · rw [if_neg hkey, if_neg hkey]

/-- A look-up after filling. -/
theorem find?_fill (hd : Table.Distinct source) (key : Scalar) :
    Table.find? (fill t source) key =
      match Table.find? source key with
      | some v => some (((Table.find? t key).map (filled · v)).getD v)
      | none => Table.find? t key := by
  refine find?_merge (f := fun old v => (old.map (filled · v)).getD v) (fun t => ?_)
    (fun t k v rest => ?_) hd key
  · rw [fill]
  · rw [fill]
    split
    · next hk =>
      refine ⟨_, rfl, fun key => ?_⟩
      rw [Table.find?_put, hk]
      rfl
    · next inner hk =>
      refine ⟨_, rfl, fun key => ?_⟩
      rw [Table.find?_put, hk]
      rfl
    · next old hold hk =>
      refine ⟨_, rfl, fun key => ?_⟩
      split
      · next hkey =>
        rw [← Table.find?_congr hkey, hk]
        cases old <;> first | rfl | exact absurd rfl (hold _)
      · rfl

/-- A look-up after overlaying. -/
theorem find?_overlay (hd : Table.Distinct source) (key : Scalar) :
    Table.find? (overlay t source) key =
      match Table.find? source key with
      | some v => some (((Table.find? t key).map (overlaid · v)).getD v)
      | none => Table.find? t key := by
  refine find?_merge (f := fun old v => (old.map (overlaid · v)).getD v) (fun t => ?_)
    (fun t k v rest => ?_) hd key
  · rw [overlay]
  · rw [overlay]
    split
    · next inner hk =>
      refine ⟨_, rfl, fun key => ?_⟩
      rw [Table.find?_put, hk]
      rfl
    · next hnot =>
      refine ⟨_, rfl, fun key => ?_⟩
      rw [Table.find?_put]
      cases hk : Table.find? t k with
      | none => rfl
      | some old => cases old <;> first | rfl | exact absurd hk (hnot _)

mutual

/-- Filling keeps the keys pairwise different. -/
theorem keyed_fill : ∀ {t source : Table Value}, Keyed (.table t) → Keyed (.table source) →
    Keyed (.table (fill t source))
  | t, [], ht, _ => by
    rw [fill]
    exact ht
  | t, (k, v) :: rest, ht, hs => by
    have hv : Keyed v := hs.of_mem List.mem_cons_self
    rw [fill]
    split
    · exact keyed_fill (ht.put k hv) hs.tail
    · next inner hk => exact keyed_fill (ht.put k (keyed_fillInto (ht.of_find? hk) hv)) hs.tail
    · exact keyed_fill ht hs.tail

private theorem keyed_fillInto :
    ∀ {inner : Table Value} {v : Value}, Keyed (.table inner) → Keyed v →
    Keyed (fillInto inner v)
  | inner, .table entries, hi, hv => by
    rw [fillInto]
    exact keyed_fill hi hv
  | inner, .scalar _, hi, _ | inner, .list _, hi, _ | inner, .pair _ _, hi, _
  | inner, .set _, hi, _ | inner, .link _ _, hi, _ => by
    rw [fillInto]
    · exact hi
    · simp

end

/-- Filling one table from another as values is filling as tables. -/
theorem filled_table (t source : Table Value) :
    filled (.table t) (.table source) = .table (fill t source) := by
  rw [filled, fillInto]

/-- Overlaying one table by another as values is overlaying as tables. -/
theorem overlaid_table (t source : Table Value) :
    overlaid (.table t) (.table source) = .table (overlay t source) := by
  rw [overlaid, overlayOn]

/-- Filling from what is no table changes nothing. -/
theorem filled_of_not_table {a b : Value} (hb : b.isTable = false) : filled a b = a := by
  cases a <;> try rfl
  cases b <;> first | rfl | cases hb

/-- Overlaying where one of both is no table replaces. -/
theorem overlaid_of_not_table {a b : Value} (h : a.isTable = false ∨ b.isTable = false) :
    overlaid a b = b := by
  cases a <;> cases b <;> first | rfl | (rcases h with h | h <;> cases h)

/-- A value that is no table stays where it is when a table around it is filled. -/
theorem at?_filled {a b v : Value} {path : List Scalar} (hb : Keyed b) (hv : v.isTable = false)
    (h : a.at? path = some v) : (filled a b).at? path = some v := by
  induction path generalizing a b with
  | nil =>
    obtain rfl : a = v := Option.some.inj h
    cases a <;> first | rfl | cases hv
  | cons key path ih =>
    cases a with
    | table t =>
      cases b with
      | table source =>
        rw [at?] at h
        rw [filled_table, at?, find?_fill hb.distinct]
        cases hs : Table.find? source key with
        | none => exact h
        | some w =>
          cases ht : Table.find? t key with
          | none =>
            rw [ht] at h
            cases h
          | some old =>
            rw [ht] at h
            exact ih (hb.of_find? hs) h
      | _ =>
        rw [filled_of_not_table rfl]
        exact h
    | _ => cases h

/-- A value that is no table stands at a path after overlaying if the source has it there, or leaves
the path open to the target that has it there. -/
theorem at?_overlaid_iff {a b v : Value} {path : List Scalar} (hb : Keyed b)
    (hv : v.isTable = false) :
    (overlaid a b).at? path = some v ↔
      b.at? path = some v ∨ (b.leavesOpen path = true ∧ a.at? path = some v) := by
  have hopen : b.leavesOpen [] = false := by cases b <;> rfl
  induction path generalizing a b with
  | nil =>
    rw [hopen, at?, at?, Option.some.injEq, Option.some.injEq]
    cases b with
    | table source =>
      cases a with
      | table t =>
        rw [overlaid_table]
        constructor
        · rintro rfl
          cases hv
        · rintro (rfl | ⟨h, -⟩)
          · cases hv
          · cases h
      | _ => simp [overlaid]
    | _ =>
      rw [overlaid_of_not_table (Or.inr rfl)]
      simp
  | cons key path ih =>
    cases b with
    | table source =>
      cases a with
      | table t =>
        rw [overlaid_table, at?, at?, at?, leavesOpen, find?_overlay hb.distinct]
        cases hs : Table.find? source key with
        | none => simp
        | some w =>
          cases ht : Table.find? t key with
          | none => simp
          | some old => exact ih (hb.of_find? hs) (by cases w <;> rfl)
      | _ =>
        rw [overlaid_of_not_table (Or.inl rfl)]
        simp [at?]
    | _ =>
      rw [overlaid_of_not_table (Or.inr rfl)]
      simp [at?, leavesOpen]

end Settings
end BindGen

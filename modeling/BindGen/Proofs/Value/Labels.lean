import BindGen.Proofs.Value.Table
import BindGen.Value.Link

/-!
# Labels

Which labels the links in a value have. Links are closed if every label is of a link that is there;
writing below the last label and adding labels keep them so. Where labels only go up no link leads
back to what it is inside of, and none is left when links are resolved.
-/

namespace BindGen

namespace Value

/-- All labels in a value meet a condition. -/
inductive Labels (P : Nat → Prop) : Value → Prop where
  | scalar (s : Scalar) : Labels P (scalar s)
  | list {items : List Value} : (∀ v ∈ items, Labels P v) → Labels P (list items)
  | pair {a b : Value} : Labels P a → Labels P b → Labels P (pair a b)
  | set (members : List Scalar) : Labels P (set members)
  | table {t : Table Value} : (∀ e ∈ t, Labels P e.2) → Labels P (table t)
  | link {label : Nat} (kind : PartKind) : P label → Labels P (link label kind)

/-- All labels in a value are below a bound. -/
abbrev Bounded (n : Nat) : Value → Prop := Labels (· < n)

variable {P Q : Nat → Prop} {n m : Nat} {v : Value} {t : Table Value}

namespace Labels

/-- A condition on labels may be replaced by a weaker one. -/
theorem imp (h : Labels P v) (hpq : ∀ label, P label → Q label) : Labels Q v := by
  induction h with
  | scalar s => exact .scalar s
  | list _ ih => exact .list ih
  | pair _ _ iha ihb => exact .pair iha ihb
  | set members => exact .set members
  | table _ ih => exact .table ih
  | link kind hlabel => exact .link kind (hpq _ hlabel)

/-- The labels of an entry satisfy what those of the table do. -/
theorem of_mem (h : Labels P (.table t)) {e : Scalar × Value} (he : e ∈ t) : Labels P e.2 := by
  cases h with
  | table ht => exact ht e he

/-- The labels of what is found satisfy what those of the table do. -/
theorem of_find? (h : Labels P (.table t)) {k : Scalar} (hv : Table.find? t k = some v) :
    Labels P v := by
  obtain ⟨k', hm, -⟩ := Table.mem_of_find? hv
  exact h.of_mem hm

/-- The empty table has no labels. -/
theorem empty : Labels P (.table []) := .table fun _ he => absurd he List.not_mem_nil

/-- The labels of a table with a value put into it satisfy what those of both do. -/
theorem put (h : Labels P (.table t)) (k : Scalar) (hv : Labels P v) :
    Labels P (.table (Table.put t k v)) := by
  refine .table fun e he => ?_
  rcases Table.snd_of_mem_put he with rfl | he
  · exact hv
  · exact h.of_mem he

/-- The labels of a table of one entry satisfy what those of its value do. -/
theorem single (k : Scalar) (hv : Labels P v) : Labels P (.table [(k, v)]) := empty.put k hv

/-- The labels of a table with a value put where it is missing satisfy what those of both do. -/
theorem putNew (h : Labels P (.table t)) (k : Scalar) (hv : Labels P v) :
    Labels P (.table (Table.putNew t k v)) := by
  rw [Table.putNew]
  split
  · exact h
  · exact h.put k hv

/-- The labels of a part of a table satisfy what those of the table do. -/
theorem filter (h : Labels P (.table t)) (p : Scalar × Value → Bool) :
    Labels P (.table (t.filter p)) :=
  .table fun _ he => h.of_mem (List.mem_filter.mp he).1

/-- The labels of a table without a key satisfy what those of the table do. -/
theorem remove (h : Labels P (.table t)) (k : Scalar) : Labels P (.table (Table.remove t k)) :=
  .table fun _ he => h.of_mem (Table.mem_of_mem_remove he)

/-- The links of a list are changed item by item. -/
theorem mapLinksItems_eq (f : Nat → PartKind → Value) (items : List Value) :
    mapLinksItems f items = items.map (mapLinks f) := by
  induction items with
  | nil => rfl
  | cons v rest ih => rw [mapLinksItems, ih, List.map_cons]

/-- The links of a table are changed value by value. -/
theorem mapLinksEntries_eq (f : Nat → PartKind → Value) (t : Table Value) :
    mapLinksEntries f t = Table.mapValues (mapLinks f) t := by
  induction t with
  | nil => rfl
  | cons e rest ih =>
    obtain ⟨k, v⟩ := e
    rw [mapLinksEntries, ih]
    rfl

/-- With other values in place of links, only the labels in these are left. -/
theorem mapLinks (h : Labels P v) {f : Nat → PartKind → Value}
    (hf : ∀ label kind, P label → Labels Q (f label kind)) : Labels Q (v.mapLinks f) := by
  induction h with
  | scalar s => exact .scalar s
  | list _ ih =>
    rw [Value.mapLinks, mapLinksItems_eq]
    refine .list fun v hv => ?_
    obtain ⟨x, hx, rfl⟩ := List.mem_map.mp hv
    exact ih x hx
  | pair _ _ iha ihb => exact .pair iha ihb
  | set members => exact .set members
  | table _ ih =>
    rw [Value.mapLinks, mapLinksEntries_eq]
    refine .table fun e he => ?_
    obtain ⟨x, hx, rfl⟩ := List.mem_map.mp he
    exact ih x hx
  | link kind hlabel => exact hf _ kind hlabel

/-- A value without links is left as it is. -/
theorem mapLinks_eq (h : Bounded 0 v) (f : Nat → PartKind → Value) : v.mapLinks f = v := by
  induction h with
  | scalar s => rfl
  | list _ ih =>
    rw [Value.mapLinks, mapLinksItems_eq, List.map_congr_left ih, List.map_id']
  | pair _ _ iha ihb => rw [Value.mapLinks, iha, ihb]
  | set members => rfl
  | @table t _ ih =>
    have hentries : Table.mapValues (Value.mapLinks f) t = t :=
      (List.map_congr_left fun e he => congrArg (Prod.mk e.1) (ih e he)).trans (List.map_id' t)
    rw [Value.mapLinks, mapLinksEntries_eq, hentries]
  | link kind hlabel => exact absurd hlabel (Nat.not_lt_zero _)

/-- Moving the labels up moves the bound. -/
theorem relabel (h : Bounded n v) (offset : Nat) : Bounded (n + offset) (v.relabel offset) :=
  mapLinks h fun _ kind hlabel => .link kind (Nat.add_lt_add_right hlabel offset)

end Labels

/-- A value within a bound is within a greater one. -/
theorem Bounded.mono (h : Bounded n v) (hn : n ≤ m) : Bounded m v :=
  h.imp fun _ hlabel => Nat.lt_of_lt_of_le hlabel hn

end Value

namespace Links

open Value

variable {l : Links} {v : Value} {label : Nat}

/-- What a value is; behind a link, what the link stands for. -/
def held (l : Links) : Value → Value
  | .link label _ => l.content label
  | v => v

/-- What a value is a table of is what it holds. -/
theorem table?_eq (l : Links) (v : Value) : l.table? v = (l.held v).table? := by
  cases v <;> rfl

/-- All labels are of links that are there. -/
def Closed (l : Links) : Prop := ∀ label < l.size, Bounded l.size (l.content label)

/-- No links at all are closed. -/
theorem closed_empty : Closed #[] := fun _ h => absurd h (Nat.not_lt_zero _)

/-- What a bounded value holds is bounded. -/
theorem Closed.held (h : l.Closed) (hv : Bounded l.size v) : Bounded l.size (l.held v) := by
  cases hv with
  | link kind hlabel => exact h _ hlabel
  | scalar s => exact .scalar s
  | list hitems => exact .list hitems
  | pair ha hb => exact .pair ha hb
  | set members => exact .set members
  | table ht => exact .table ht

/-- The table of a bounded value is bounded. -/
theorem Closed.table? (h : l.Closed) (hv : Bounded l.size v) {t : Table Value}
    (ht : l.table? v = some t) : Bounded l.size (.table t) := by
  have hheld := h.held hv
  rw [table?_eq] at ht
  cases hw : l.held v with
  | table u =>
    rw [hw] at ht hheld
    obtain rfl := Option.some.inj ht
    exact hheld
  | _ =>
    rw [hw] at ht
    cases ht

/-! ## Writing to links -/

/-- Behind the last link there is nothing. -/
theorem content_of_ge (h : l.size ≤ label) : l.content label = .null := by
  rw [content, Array.getElem?_eq_none h]
  rfl

/-- A link that is pushed holds its value, and the others are as before. -/
theorem content_push (l : Links) (v : Value) (label : Nat) :
    content (l.push v) label = if label = l.size then v else l.content label := by
  rw [content, Array.getElem?_push]
  split <;> rfl

/-- Links behind others hold what they held, with their labels shifted. -/
theorem content_append (l l' : Links) (label : Nat) : content (l ++ l') label =
    if label < l.size then l.content label else l'.content (label - l.size) := by
  rw [content, Array.getElem?_append]
  split <;> rfl

/-- A link that is set holds the new value, and the others are as before. -/
theorem content_setIfInBounds (l : Links) (at_ : Nat) (v : Value) (label : Nat) :
    content (l.setIfInBounds at_ v) label =
      if at_ = label ∧ at_ < l.size then v else l.content label := by
  rw [content, Array.getElem?_setIfInBounds]
  by_cases hsame : at_ = label
  · subst hsame
    by_cases hlt : at_ < l.size
    · simp [hlt]
    · rw [if_pos rfl, if_neg hlt, if_neg (fun h => hlt h.2), content_of_ge (Nat.le_of_not_lt hlt)]
      rfl
  · rw [if_neg hsame, if_neg fun h => hsame h.1]
    rfl

/-- Closed links stay closed with one more. -/
theorem Closed.push (hl : l.Closed) (hv : Bounded (l.size + 1) v) : Closed (l.push v) := by
  intro label hlabel
  rw [Array.size_push] at hlabel ⊢
  rw [content_push]
  split
  · exact hv
  · next hne => exact (hl label (by omega)).mono (Nat.le_succ _)

/-- Closed links stay closed when one of them is set. -/
theorem Closed.setIfInBounds (hl : l.Closed) (label : Nat) (hv : Bounded l.size v) :
    Closed (l.setIfInBounds label v) := by
  intro label' hlabel
  rw [Array.size_setIfInBounds] at hlabel ⊢
  rw [content_setIfInBounds]
  split
  · exact hv
  · exact hl label' hlabel

/-- A value of other links is copied with what its links stand for, and nothing else changes. -/
theorem adopt_spec {source : Links} (hs : source.Closed) (hv : Bounded source.size v) :
    l.size ≤ (l.adopt source v).1.size ∧ (l.Closed → (l.adopt source v).1.Closed) ∧
      Bounded (l.adopt source v).1.size (l.adopt source v).2 ∧
      ∀ label < l.size, (l.adopt source v).1.content label = l.content label := by
  rw [adopt]
  split
  · next hempty =>
    have hzero : source.size = 0 := by simpa using hempty
    exact ⟨Nat.le_refl _, id, hv.mono (by omega), fun _ _ => rfl⟩
  · refine ⟨?_, fun hl label hlabel => ?_, ?_, fun label hlabel => ?_⟩
    · simp
    · simp only [Array.size_append, Array.size_map] at hlabel ⊢
      rw [content_append]
      split
      · next hlt => exact (hl label hlt).mono (Nat.le_add_right _ _)
      · have hin : label - l.size < source.size := by omega
        have hcontent : content (source.map (relabel l.size)) (label - l.size) =
            (source.content (label - l.size)).relabel l.size := by
          simp [content, hin]
        rw [hcontent, Nat.add_comm]
        exact (hs _ hin).relabel l.size
    · simp only [Array.size_append, Array.size_map]
      rw [Nat.add_comm]
      exact hv.relabel l.size
    · rw [content_append, if_pos hlabel]

/-! ## Resolving links -/

/-- A value without links is plain as it is. -/
theorem resolve_of_bounded (l : Links) (hv : Bounded 0 v) : l.resolve v = v := by
  rw [resolve]
  split
  · rfl
  · exact hv.mapLinks_eq _

/-- The labels that a label leads to, at once or not, are above it. -/
def Rising (l : Links) : Prop :=
  ∀ label < l.size, Labels (fun inner => label < inner ∧ inner < l.size) (l.content label)

private theorem bounded_resolveWithin (hl : l.Rising) {depth k : Nat} {around : List Nat}
    (hdepth : l.size < depth + k) (haround : ∀ label ∈ around, label < k)
    (hv : Labels (fun label => k ≤ label ∧ label < l.size) v) :
    Bounded 0 (l.resolveWithin depth around v) := by
  induction depth generalizing k around v with
  | zero =>
    rw [resolveWithin]
    exact hv.imp fun label hlabel => by omega
  | succ depth ih =>
    rw [resolveWithin]
    refine hv.mapLinks fun label kind ⟨hk, hsize⟩ => ?_
    have hnew : around.contains label = false := by
      rw [← Bool.not_eq_true, List.contains_iff_mem]
      exact fun hmem => absurd (haround label hmem) (Nat.not_lt.mpr hk)
    rw [hnew]
    refine ih (k := label + 1) (by omega) ?_ (hl label hsize)
    exact List.forall_mem_cons.mpr ⟨Nat.lt_succ_self label, fun inner hinner =>
      Nat.lt_succ_of_lt (Nat.lt_of_lt_of_le (haround inner hinner) hk)⟩

/-- Where labels rise, no link is left when links are resolved. -/
theorem Rising.bounded_resolve (hl : l.Rising) (hv : Bounded l.size v) :
    Bounded 0 (l.resolve v) := by
  rw [resolve]
  split
  · next hempty =>
    have hzero : l.size = 0 := by simpa using hempty
    exact hv.mono (Nat.le_of_eq hzero)
  · exact bounded_resolveWithin hl (k := 0) (Nat.lt_succ_self _)
      (fun _ h => absurd h List.not_mem_nil) (hv.imp fun _ hlabel => ⟨Nat.zero_le _, hlabel⟩)

end Links
end BindGen

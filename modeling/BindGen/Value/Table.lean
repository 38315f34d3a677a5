import BindGen.Value.Scalar

/-!
# Tables

Lists of entries that keep the order in which their keys first appeared. A key is found by
`Scalar.same`; writing a present key keeps its place and its spelling, writing a new one appends it.
The lemmas say what a look-up finds after each operation.
-/

namespace BindGen

/-- Entries with pairwise different keys, in the order in which the keys first appeared. -/
abbrev Table (α : Type) := List (Scalar × α)

namespace Table

variable {α β : Type}

/-- The value under a key. -/
def find? : Table α → Scalar → Option α
  | [], _ => none
  | (k, v) :: rest, key => if k.same key then some v else find? rest key

/-- Whether a key is present. -/
def has (t : Table α) (key : Scalar) : Bool := (find? t key).isSome

/-- Sets the value under a key. -/
def put : Table α → Scalar → α → Table α
  | [], key, v => [(key, v)]
  | (k, old) :: rest, key, v =>
    if k.same key then (k, v) :: rest else (k, old) :: put rest key v

/-- Sets the value under a key that is absent, and otherwise changes nothing. -/
def putNew (t : Table α) (key : Scalar) (v : α) : Table α :=
  if has t key then t else put t key v

/-- The table without a key. -/
def remove : Table α → Scalar → Table α
  | [], _ => []
  | (k, v) :: rest, key => if k.same key then rest else (k, v) :: remove rest key

/-- The keys in order. -/
def keys (t : Table α) : List Scalar := t.map (·.1)

/-- The values in the order of their keys. -/
def values (t : Table α) : List α := t.map (·.2)

/-- The table with every value replaced. -/
def mapValues (f : α → β) (t : Table α) : Table β := t.map fun (k, v) => (k, f v)

/-- Nothing is found in an empty table. -/
@[simp] theorem find?_nil (key : Scalar) : find? ([] : Table α) key = none := rfl

/-- Equal keys find the same value. -/
theorem find?_congr {t : Table α} {a b : Scalar} (h : a.same b = true) :
    find? t a = find? t b := by
  induction t with
  | nil => rfl
  | cons e rest ih =>
    obtain ⟨k, v⟩ := e
    have : k.same a = k.same b := by simp_all [Scalar.same]
    simp [find?, this, ih]

/-- A written key is found with its new value. -/
theorem find?_put_same {t : Table α} {key key' : Scalar} {v : α} (h : key.same key' = true) :
    find? (put t key v) key' = some v := by
  induction t with
  | nil => simp [put, find?, h]
  | cons e rest ih =>
    obtain ⟨k, old⟩ := e
    rw [put]
    split
    · next hk => simp [find?, Scalar.same_trans hk h]
    · next hk =>
      have : k.same key' = false := by simp_all [Scalar.same]
      simp [find?, this, ih]

/-- Writing a key leaves the others alone. -/
theorem find?_put_of_ne {t : Table α} {key key' : Scalar} {v : α} (h : key.same key' = false) :
    find? (put t key v) key' = find? t key' := by
  induction t with
  | nil => simp [put, find?, h]
  | cons e rest ih =>
    obtain ⟨k, old⟩ := e
    rw [put]
    split
    · next hk =>
      have : k.same key' = false := by simp_all [Scalar.same]
      simp [find?, this]
    · simp [find?, ih]

/-- Mapping the values commutes with looking one up. -/
theorem find?_mapValues (f : α → β) (t : Table α) (key : Scalar) :
    find? (mapValues f t) key = (find? t key).map f := by
  induction t with
  | nil => rfl
  | cons e rest ih =>
    obtain ⟨k, v⟩ := e
    simp only [mapValues, List.map_cons, find?] at ih ⊢
    split <;> simp_all

end Table
end BindGen

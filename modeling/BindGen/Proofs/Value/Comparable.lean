import BindGen.Proofs.Value.Table
import BindGen.Value.Fault

/-!
# What can be compared

Scalars come in classes: numbers, texts, and moments of each form. Those of one class can be
compared with each other, and nothing else with anything. So keys can be sorted exactly if they are
all of one class, or there is only one of them.
-/

namespace BindGen

namespace Scalar

/-- The scalars that can be compared with each other. -/
inductive OrderClass where
  | number
  | text
  | date
  | time
  | dateTime
  | instant
deriving DecidableEq

/-- The class of what a scalar is identified by. -/
def Identity.orderClass? : Identity → Option OrderClass
  | .integer _ | .fraction _ => some .number
  | .text _ | .broken _ => some .text
  | .moment (.date _) => some .date
  | .moment (.time _) => some .time
  | .moment (.dateTime _ _ _) => some .dateTime
  | .instant _ => some .instant
  | .null | .bytes _ => none

/-- The class of a scalar. -/
def orderClass? (a : Scalar) : Option OrderClass := a.identity.orderClass?

/-- Whether two scalars are of one class. -/
def Comparable (a b : Scalar) : Prop := ∃ c, a.orderClass? = some c ∧ b.orderClass? = some c

variable {a b a' b' : Scalar}

private theorem orderClass?_congr (h : a.same b = true) : a.orderClass? = b.orderClass? := by
  rw [orderClass?, same_iff.mp h, orderClass?]

/-- Comparability goes both ways. -/
theorem Comparable.symm (h : Comparable a b) : Comparable b a := by
  obtain ⟨c, ha, hb⟩ := h
  exact ⟨c, hb, ha⟩

/-- Scalars that are the same are comparable with the same scalars. -/
theorem Comparable.congr (ha : a.same a' = true) (hb : b.same b' = true) :
    Comparable a b ↔ Comparable a' b' := by
  rw [Comparable, orderClass?_congr ha, orderClass?_congr hb, Comparable]

private theorem orderClass?_float (x : Double) : (float x).orderClass? = some .number := by
  unfold orderClass? identity
  dsimp only
  split <;> rfl

private theorem number?_isSome_iff :
    a.number?.isSome = true ↔ a.orderClass? = some .number ∧ a ≠ .float .nan := by
  cases a with
  | float x => cases x <;> simp [number?, Double.toRatio?, orderClass?_float]
  | moment m =>
    cases m with
    | dateTime d c offset =>
      cases offset <;> simp [number?, orderClass?, identity, Identity.orderClass?]
    | _ => simp [number?, orderClass?, identity, Identity.orderClass?]
  | _ => simp [number?, orderClass?, identity, Identity.orderClass?]

/-- What the scalars of a class are. -/
theorem eq_of_orderClass? {c : OrderClass} (h : a.orderClass? = some c) :
    match c with
    | .number => a.number?.isSome = true ∨ a = .float .nan
    | .text => a.IsWord
    | .date => ∃ day, a = .moment (.date day)
    | .time => ∃ clock, a = .moment (.time clock)
    | .dateTime => ∃ day clock, a = .moment (.dateTime day clock none)
    | .instant => ∃ day clock offset, a = .moment (.dateTime day clock (some offset)) := by
  cases a with
  | null | bytes b => cases h
  | bool b | int n =>
    cases h
    exact .inl rfl
  | float x =>
    rw [orderClass?_float] at h
    cases h
    by_cases hx : x = .nan
    · exact .inr (congrArg float hx)
    · exact .inl (number?_isSome_iff.mpr ⟨orderClass?_float x, by simpa using hx⟩)
  | text s =>
    cases h
    exact ⟨s, rfl⟩
  | broken t =>
    cases h
    exact ⟨.broken t, rfl⟩
  | moment m =>
    cases m with
    | date day =>
      cases h
      exact ⟨day, rfl⟩
    | time clock =>
      cases h
      exact ⟨clock, rfl⟩
    | dateTime day clock offset =>
      cases offset with
      | none =>
        cases h
        exact ⟨day, clock, rfl⟩
      | some offset =>
        cases h
        exact ⟨day, clock, offset, rfl⟩

private theorem comparable_number_iff (ha : a.orderClass? = some .number) :
    Comparable a b ↔ b.orderClass? = some .number := by
  constructor
  · rintro ⟨c, hc, hb⟩
    rw [ha] at hc
    rw [hb, ← hc]
  · exact fun hb => ⟨.number, ha, hb⟩

private theorem isSome_pair {β γ : Type} {x y : Option β} {f : β → β → γ} :
    (do return f (← x) (← y) : Option γ).isSome = true ↔ x.isSome = true ∧ y.isSome = true := by
  cases x <;> cases y <;> simp

/-- Different scalars can be compared exactly if they are of one class. -/
theorem order?_isSome_iff (h : a.same b = false) : (a.order? b).isSome = true ↔ Comparable a b := by
  have hnan : a = .float .nan → b ≠ .float .nan := by
    rintro rfl rfl
    rw [same_refl] at h
    cases h
  unfold order?
  split
  iterate 8 simp [Comparable, orderClass?, identity, Identity.orderClass?]
  · rw [Option.isSome_map, number?_isSome_iff, comparable_number_iff (orderClass?_float .nan)]
    exact and_iff_left (hnan rfl)
  · rw [Option.isSome_map, number?_isSome_iff]
    constructor
    · exact fun ha => ⟨.number, ha.1, orderClass?_float .nan⟩
    · intro hc
      exact ⟨(comparable_number_iff (orderClass?_float .nan)).mp hc.symm, fun ha => hnan ha rfl⟩
  · next hleft hright htext hlate hearly hbroken hdate htime hdateTime hinstant =>
    rw [isSome_pair]
    constructor
    · rintro ⟨ha, hb⟩
      exact ⟨.number, (number?_isSome_iff.mp ha).1, (number?_isSome_iff.mp hb).1⟩
    · rintro ⟨c, ha, hb⟩
      have ha := eq_of_orderClass? ha
      have hb := eq_of_orderClass? hb
      cases c with
      | number => exact ⟨ha.resolve_right hleft, hb.resolve_right hright⟩
      | text =>
        obtain ⟨s | t, rfl⟩ := ha
        · obtain ⟨s' | t', rfl⟩ := hb
          · exact (htext s s' rfl rfl).elim
          · exact (hlate s t' rfl rfl).elim
        · obtain ⟨s' | t', rfl⟩ := hb
          · exact (hearly t s' rfl rfl).elim
          · exact (hbroken t t' rfl rfl).elim
      | date =>
        obtain ⟨x, rfl⟩ := ha
        obtain ⟨y, rfl⟩ := hb
        exact (hdate x y rfl rfl).elim
      | time =>
        obtain ⟨x, rfl⟩ := ha
        obtain ⟨y, rfl⟩ := hb
        exact (htime x y rfl rfl).elim
      | dateTime =>
        obtain ⟨x, s, rfl⟩ := ha
        obtain ⟨y, t, rfl⟩ := hb
        exact (hdateTime x s y t rfl rfl).elim
      | instant =>
        obtain ⟨x, s, o, rfl⟩ := ha
        obtain ⟨y, t, o', rfl⟩ := hb
        exact (hinstant x s o y t o' rfl rfl).elim

private theorem allOrdered_iff {keys : List Scalar} : allOrdered keys = true ↔
    keys.Pairwise fun a b => (a.order? b).isSome = true := by
  induction keys with
  | nil => simp [allOrdered]
  | cons a keys ih => simp [allOrdered, ih]

/-- Different keys are in an order exactly if any two of them are of one class. -/
theorem allOrdered_iff_comparable {keys : List Scalar}
    (h : keys.Pairwise fun a b => a.same b = false) :
    allOrdered keys = true ↔ keys.Pairwise Comparable := by
  rw [allOrdered_iff]
  constructor
  · intro ho
    exact (h.and ho).imp fun hab => (order?_isSome_iff hab.1).mp hab.2
  · intro hc
    exact (h.and hc).imp fun hab => (order?_isSome_iff hab.1).mpr hab.2

end Scalar

variable {α : Type} {key : α → Scalar} {items : List α} {f : Fault}

/-- Items can be sorted by different keys exactly if the keys can be compared. -/
theorem sortByKey_isOk_iff (h : (items.map key).Pairwise fun a b => a.same b = false) :
    (∃ sorted, sortByKey key items = .ok sorted) ↔ (items.map key).Pairwise Scalar.Comparable := by
  rw [← Scalar.allOrdered_iff_comparable h, sortByKey]
  by_cases ho : Scalar.allOrdered (items.map key) = true
  · rw [if_pos ho]
    exact ⟨fun _ => ho, fun _ => ⟨_, rfl⟩⟩
  · rw [if_neg ho]
    refine ⟨?_, fun h' => absurd h' ho⟩
    rintro ⟨sorted, hs⟩
    -- Fewer than two keys are always in an order.
    rcases hk : items.map key with _ | ⟨a, _ | ⟨b, rest⟩⟩
    · rw [hk] at ho
      exact absurd rfl ho
    · rw [hk] at ho
      exact absurd rfl ho
    · rw [hk] at hs
      cases hs

/-- Items that cannot be sorted have keys of two types. -/
theorem exists_notOrdered_of_sortByKey (h : sortByKey key items = .error f) :
    ∃ first second, f = .notOrdered first second := by
  unfold sortByKey at h
  split at h
  · cases h
  · split at h
    · exact ⟨_, _, (Except.error.inj h).symm⟩
    · cases h

end BindGen

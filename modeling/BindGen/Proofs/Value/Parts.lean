import BindGen.Proofs.Run.Fold
import BindGen.Value.Fault

/-!
# The parts of values

Which values have the parts that an operation asks for, and how the operation fails on the others.
-/

namespace BindGen

/-- A fault of a value that is not of the shape it should have: a key is missing, or a part of it is
of a wrong type. -/
def Fault.IsMisfit (f : Fault) : Prop := f.kind = .key ∨ f.kind = .type

namespace Value

variable {P : Value → Prop} {v : Value} {key operation : String} {f : Fault}

/-- Whether a value is a list, or a pair, of values that have a property. -/
def IsListOf (P : Value → Prop) : Value → Prop
  | list items => ∀ v ∈ items, P v
  | pair a b => P a ∧ P b
  | _ => False

/-- Whether a value is made up of values that can be gone through. -/
def IsIterable : Value → Prop
  | text _ | scalar (.broken _) | list _ | pair _ _ | set _ | table _ => True
  | _ => False

/-- Whether a value is a table. -/
def IsTable (v : Value) : Prop := ∃ entries, v = table entries

/-- A part is there where the value is a table that has it. -/
theorem part_isOk_iff : (∃ w, v.part key = .ok w) ↔
    ∃ entries, v = .table entries ∧ Table.has entries key = true := by
  rw [part.eq_def]
  split
  · next entries =>
    cases h : Table.find? entries (Scalar.text key) with
    | some w => simp [Table.has, h]
    | none => simp [Table.has, h]
  all_goals simp_all

/-- A value that lacks a part is no table, or the key is missing. -/
theorem part_failsWith : FailsWith Fault.IsMisfit (v.part key) := by
  rw [part.eq_def]
  split
  · split
    · exact .ok _
    · exact .error (.inl rfl)
  all_goals exact .error (.inr rfl)

/-- The elements of a value are there where it can be iterated. -/
theorem elements_isOk_iff : (∃ items, v.elements = .ok items) ↔ v.IsIterable := by
  rw [elements.eq_def, IsIterable.eq_def]
  split <;> simp_all

/-- A value without elements has the wrong type. -/
theorem elements_failsWith : FailsWith Fault.IsMisfit v.elements := by
  rw [elements.eq_def]
  split
  case h_7 => exact .error (.inr rfl)
  all_goals exact .ok _

private theorem not_forall_mem_scalars {α : Type} {members : List α} {s : α → Scalar}
    (hscalar : ∀ s, ¬P (scalar s)) (hm : members ≠ []) :
    ¬∀ w ∈ members.map fun m => scalar (s m), P w := by
  obtain ⟨m, hm⟩ := List.exists_mem_of_ne_nil members hm
  intro h
  exact hscalar _ (h _ (List.mem_map_of_mem hm))

/-- Only lists and pairs are made up of anything but scalars. -/
theorem forall_mem_elements_iff (hscalar : ∀ s, ¬P (scalar s)) (hv : v.isTruthy = true) :
    (∃ items, v.elements = .ok items ∧ ∀ w ∈ items, P w) ↔ v.IsListOf P := by
  cases v with
  | list items => simp [elements, IsListOf]
  | pair a b => simp [elements, IsListOf]
  | link label kind => simp [elements, IsListOf]
  | set members =>
    have hm : members ≠ [] := by simpa [isTruthy] using hv
    simpa [elements, IsListOf] using not_forall_mem_scalars (s := id) hscalar hm
  | table entries =>
    have hm : entries ≠ [] := by simpa [isTruthy] using hv
    simpa [elements, IsListOf] using not_forall_mem_scalars (s := Prod.fst) hscalar hm
  | scalar s =>
    cases s with
    | text t =>
      have hm : t.toList ≠ [] := by simpa [isTruthy, Scalar.isTruthy] using hv
      simpa [elements, IsListOf] using
        not_forall_mem_scalars (s := fun c => .text (String.singleton c)) hscalar hm
    | broken t =>
      simpa [elements, IsListOf, LooseText.value] using
        not_forall_mem_scalars (s := fun n => (LooseText.ofPoints [n]).scalar) hscalar
          t.points_ne_nil
    | _ => simp [elements, IsListOf]

/-- Looking for a part that may be missing fails only for what is no table. -/
theorem optionalPart_eq_error_iff :
    v.optionalPart key = .error f ↔ ¬v.IsTable ∧ f = .noOperation v.typeName "get" := by
  cases v <;> simp [optionalPart, IsTable, eq_comm]

/-- A value serves as a key unless it is no scalar. -/
theorem asKey_eq_error_iff :
    v.asKey = .error f ↔ (¬∃ s, v = .scalar s) ∧ f = .notHashable v.typeName := by
  cases v <;> simp [asKey, eq_comm]

/-- A value serves as a text unless it is none. -/
theorem asText_eq_error_iff : v.asText operation = .error f ↔
    (¬∃ t : LooseText, v = t.value) ∧ f = .noOperation v.typeName operation := by
  have hvalue (t : LooseText) : ∃ u, t.value.asText operation = .ok u := by
    cases t <;> exact ⟨_, rfl⟩
  constructor
  · intro h
    refine ⟨?_, ?_⟩
    · rintro ⟨t, rfl⟩
      obtain ⟨u, hu⟩ := hvalue t
      rw [hu] at h
      cases h
    · rw [asText.eq_def] at h
      split at h
      · cases h
      · cases h
      · exact (Except.error.inj h).symm
  · rintro ⟨hnot, rfl⟩
    rw [asText.eq_def]
    split
    · next s => exact absurd ⟨.proper s, rfl⟩ hnot
    · next t => exact absurd ⟨.broken t, rfl⟩ hnot
    · rfl

end Value
end BindGen

import BindGen.Run.Workspace
import Mathlib.Data.List.Forall2

/-!
# Corresponding outcomes

Two computations correspond if they fail together, and if their results are related when they do not
fail. The errors may differ. Corresponding computations may be put together: one after the other,
over related lists, and over a list and a permutation of it. Runs correspond if, from related
workspaces, their outcomes do and the workspaces stay related.
-/

namespace BindGen

variable {ε ε' δ δ' α β γ α' β' γ' : Type}

/-- Both outcomes are failures, or both are results that are related. -/
inductive Corresponds (R : α → β → Prop) : Except ε α → Except δ β → Prop where
  | error (e : ε) (d : δ) : Corresponds R (.error e) (.error d)
  | ok {a : α} {b : β} (h : R a b) : Corresponds R (.ok a) (.ok b)

namespace Corresponds

variable {R : α → β → Prop} {S : α' → β' → Prop} {x : Except ε α} {y : Except δ β}

/-- A result corresponds to itself where each value does. -/
theorem refl {R : α → α → Prop} (h : ∀ a, R a a) (x : Except ε α) : Corresponds R x x := by
  cases x with
  | error e => exact .error e e
  | ok a => exact .ok (h a)

private theorem trans {T : α → γ → Prop} {Q : β → γ → Prop} {z : Except δ' γ}
    (h : Corresponds R x y)
    (h' : Corresponds Q y z) (ht : ∀ a b c, R a b → Q b c → T a c) : Corresponds T x z := by
  cases h with
  | error e d =>
    cases h' with
    | error _ d' => exact .error e d'
  | ok hr =>
    cases h' with
    | ok hq => exact .ok (ht _ _ _ hr hq)

/-- Results that correspond in one way do so in a wider one. -/
theorem mono {T : α → β → Prop} (h : Corresponds R x y) (ht : ∀ a b, R a b → T a b) :
    Corresponds T x y := by
  cases h with
  | error e d => exact .error e d
  | ok hr => exact .ok (ht _ _ hr)

/-- What the first outcome is may be kept with the relation. -/
theorem with_left (h : Corresponds R x y) : Corresponds (fun a b => R a b ∧ x = .ok a) x y := by
  cases h with
  | error e d => exact .error e d
  | ok hr => exact .ok ⟨hr, rfl⟩

/-- Outcomes correspond if they succeed together and their results are related. -/
theorem of_iff (h : (∃ a, x = .ok a) ↔ ∃ b, y = .ok b)
    (hr : ∀ a b, x = .ok a → y = .ok b → R a b) : Corresponds R x y := by
  cases x with
  | error e =>
    cases y with
    | error d => exact .error e d
    | ok b =>
      obtain ⟨a, ha⟩ := h.mpr ⟨b, rfl⟩
      cases ha
  | ok a =>
    obtain ⟨b, rfl⟩ := h.mp ⟨a, rfl⟩
    exact .ok (hr a b rfl rfl)

private theorem mapError (h : Corresponds R x y) (f : ε → ε') (g : δ → δ') :
    Corresponds R (x.mapError f) (y.mapError g) := by
  cases h with
  | error e d => exact .error _ _
  | ok hr => exact .ok hr

/-- Steps that correspond, one after the other, correspond. -/
theorem bind (h : Corresponds R x y) {f : α → Except ε α'} {g : β → Except δ β'}
    (hf : ∀ a b, R a b → Corresponds S (f a) (g b)) : Corresponds S (x >>= f) (y >>= g) := by
  cases h with
  | error e d => exact .error e d
  | ok hr => exact hf _ _ hr

/-- Steps over related lists correspond if those over related items do. -/
theorem mapM {P : α → β → Prop} {xs : List α} {ys : List β} (h : List.Forall₂ P xs ys)
    {f : α → Except ε α'} {g : β → Except δ β'}
    (hf : ∀ a b, P a b → Corresponds S (f a) (g b)) :
    Corresponds (List.Forall₂ S) (xs.mapM f) (ys.mapM g) := by
  induction h with
  | nil => exact .ok .nil
  | cons hab _ ih =>
    rw [List.mapM_cons, List.mapM_cons]
    exact (hf _ _ hab).bind fun _ _ ha => ih.bind fun _ _ hs => .ok (.cons ha hs)

/-- Steps over a list and a permutation of it correspond. -/
theorem mapM_perm {xs ys : List α} (h : xs.Perm ys) (f : α → Except ε β) :
    Corresponds List.Perm (xs.mapM f) (ys.mapM f) := by
  induction h with
  | nil => exact .ok .nil
  | cons a _ ih =>
    rw [List.mapM_cons, List.mapM_cons]
    exact (refl (R := Eq) (fun _ => rfl) (f a)).bind fun b _ hb =>
      ih.bind fun _ _ hs => .ok (hb ▸ hs.cons b)
  | swap a b l =>
    rw [List.mapM_cons, List.mapM_cons, List.mapM_cons, List.mapM_cons]
    cases f a with
    | error e =>
      cases f b with
      | error d => exact .error d e
      | ok c => exact .error e e
    | ok c =>
      cases f b with
      | error d => exact .error d d
      | ok d =>
        cases l.mapM f with
        | error e => exact .error e e
        | ok l => exact .ok (.swap c d l)
  | trans _ _ ih ih' => exact ih.trans ih' fun _ _ _ h h' => h.trans h'

end Corresponds

namespace Run

variable {W : Workspace → Workspace → Prop} {R : α → β → Prop} {S : α' → β' → Prop}

/-- From related workspaces two runs have outcomes that correspond, and leave related workspaces. -/
def InStep (W : Workspace → Workspace → Prop) (R : α → β → Prop) (x : Run ε α) (y : Run δ β) :
    Prop :=
  ∀ w v, W w v → Corresponds R (x w).1 (y v).1 ∧ W (x w).2 (y v).2

namespace InStep

/-- Runs that do nothing but give related values are in step. -/
theorem pure {a : α} {b : β} (h : R a b) :
    InStep W R (Pure.pure a : Run ε α) (Pure.pure b : Run δ β) :=
  fun _ _ hw => ⟨.ok h, hw⟩

/-- Runs in step, followed by runs in step, are in step. -/
theorem bind {x : Run ε α} {y : Run δ β} (h : InStep W R x y) {f : α → Run ε α'} {g : β → Run δ β'}
    (hf : ∀ a b, R a b → InStep W S (f a) (g b)) : InStep W S (x >>= f) (y >>= g) := by
  intro w v hw
  obtain ⟨hc, hw'⟩ := h w v hw
  change Corresponds S ((ExceptT.bindCont f (x w).1) (x w).2).1
      ((ExceptT.bindCont g (y v).1) (y v).2).1 ∧
    W ((ExceptT.bindCont f (x w).1) (x w).2).2 ((ExceptT.bindCont g (y v).1) (y v).2).2
  generalize (x w).1 = a at hc
  generalize (y v).1 = b at hc
  cases hc with
  | error e d => exact ⟨.error e d, hw'⟩
  | ok hr => exact hf _ _ hr _ _ hw'

/-- Results that correspond are in step as runs, whatever errors they become. -/
theorem orElse {x : Except ε α} {y : Except δ β} (h : Corresponds R x y) (f : ε → ε') (g : δ → δ') :
    InStep W R (Run.orElse f x) (Run.orElse g y) :=
  fun _ _ hw => ⟨h.mapError f g, hw⟩

/-- Runs stay in step when their errors are renamed. -/
theorem lift {x : Run ε α} {y : Run δ β} (h : InStep W R x y) (f : ε → ε') (g : δ → δ') :
    InStep W R (Run.lift f x) (Run.lift g y) := by
  intro w v hw
  obtain ⟨hc, hw'⟩ := h w v hw
  have hx : Run.lift f x w = ((x w).1.mapError f, (x w).2) := by
    rw [Run.lift]
    obtain ⟨_ | _, _⟩ := x w <;> rfl
  have hy : Run.lift g y v = ((y v).1.mapError g, (y v).2) := by
    rw [Run.lift]
    obtain ⟨_ | _, _⟩ := y v <;> rfl
  rw [hx, hy]
  exact ⟨hc.mapError f g, hw'⟩

/-- Runs over related lists correspond if those over related items do. -/
theorem mapM {P : α → β → Prop} {xs : List α} {ys : List β} (h : List.Forall₂ P xs ys)
    {f : α → Run ε α'} {g : β → Run δ β'} (hf : ∀ a b, P a b → InStep W S (f a) (g b)) :
    InStep W (List.Forall₂ S) (xs.mapM f) (ys.mapM g) := by
  induction h with
  | nil => exact pure .nil
  | cons hab _ ih =>
    rw [List.mapM_cons, List.mapM_cons]
    exact (hf _ _ hab).bind fun _ _ ha => ih.bind fun _ _ hs => pure (.cons ha hs)

end InStep
end Run
end BindGen

import BindGen.Product
import Mathlib.Data.List.Forall2

/-!
# Steps over lists that may fail

A fold whose state is kept in step with the items done so far succeeds exactly if all items meet a
condition, if one more item can be done exactly if the items done and that one meet it. Steps that
each give one result succeed together if each of them does.
-/

namespace BindGen

variable {σ α ε : Type} {f : σ → α → Except ε σ} {Inv : σ → List α → Prop} {Meets : List α → Prop}
  {Allowed : α → Prop}

/-- From what one step needs and keeps, what a whole fold needs and keeps. -/
theorem foldlM_exact
    (hstep : ∀ s done a, Inv s done → Allowed a →
      ((∃ s', f s a = .ok s') ↔ Meets (done ++ [a])) ∧ ∀ s', f s a = .ok s' → Inv s' (done ++ [a]))
    (hfront : ∀ as bs, Meets (as ++ bs) → Meets as)
    {s : σ} {done rest : List α} (hs : Inv s done) (hm : Meets done) (hr : ∀ a ∈ rest, Allowed a) :
    ((∃ s', rest.foldlM f s = .ok s') ↔ Meets (done ++ rest)) ∧
      ∀ s', rest.foldlM f s = .ok s' → Inv s' (done ++ rest) := by
  induction rest generalizing s done with
  | nil =>
    rw [List.append_nil]
    refine ⟨⟨fun _ => hm, fun _ => ⟨s, rfl⟩⟩, fun s' h => ?_⟩
    obtain rfl := Except.ok.inj h
    exact hs
  | cons a rest ih =>
    obtain ⟨hok, hinv⟩ := hstep s done a hs (hr a List.mem_cons_self)
    rw [List.foldlM_cons]
    cases hf : f s a with
    | error e =>
      rw [hf] at hok
      refine ⟨⟨?_, fun h => ?_⟩, ?_⟩
      · rintro ⟨s', h⟩
        cases h
      · rw [← List.singleton_append, ← List.append_assoc] at h
        obtain ⟨s', h'⟩ := hok.mpr (hfront _ _ h)
        cases h'
      · intro s' h
        cases h
    | ok s' =>
      have := ih (hinv s' hf) (hok.mp ⟨s', hf⟩) fun b hb => hr b (List.mem_cons_of_mem a hb)
      rw [List.append_assoc, List.singleton_append] at this
      exact this

/-- A fold that fails has failed at one item, behind items that it could do. -/
theorem exists_of_foldlM_eq_error {s : σ} {l : List α} {e : ε} (h : l.foldlM f s = .error e) :
    ∃ done a rest s', l = done ++ a :: rest ∧ done.foldlM f s = .ok s' ∧ f s' a = .error e := by
  induction l generalizing s with
  | nil => cases h
  | cons a l ih =>
    rw [List.foldlM_cons] at h
    cases hf : f s a with
    | error e' =>
      rw [hf] at h
      obtain rfl : e' = e := Except.error.inj h
      exact ⟨[], a, l, s, rfl, rfl, hf⟩
    | ok s' =>
      rw [hf] at h
      obtain ⟨done, b, rest, s'', rfl, hdone, hb⟩ := ih h
      refine ⟨a :: done, b, rest, s'', rfl, ?_, hb⟩
      rw [List.foldlM_cons, hf]
      exact hdone

/-- A loop fails where some item does behind a part that does not. -/
theorem foldlM_eq_error_iff {s : σ} {l : List α} {e : ε} : l.foldlM f s = .error e ↔
    ∃ done a rest s', l = done ++ a :: rest ∧ done.foldlM f s = .ok s' ∧ f s' a = .error e := by
  refine ⟨exists_of_foldlM_eq_error, ?_⟩
  rintro ⟨done, a, rest, s', rfl, hdone, ha⟩
  rw [List.foldlM_append, hdone]
  change (a :: rest).foldlM f s' = .error e
  rw [List.foldlM_cons, ha]
  rfl

/-- A success is followed by the step behind it. -/
theorem ok_bind (a : α) (g : α → Except ε σ) : (Except.ok a >>= g) = g a := rfl

/-- An error is followed by nothing. -/
theorem error_bind (e : ε) (g : α → Except ε σ) : (Except.error e >>= g) = .error e := rfl

/-- Steps that succeed one after the other each succeed. -/
theorem exists_of_bind_eq_ok {x : Except ε α} {g : α → Except ε σ} {b : σ}
    (h : (x >>= g) = .ok b) : ∃ a, x = .ok a ∧ g a = .ok b := by
  cases x with
  | error e => cases h
  | ok a => exact ⟨a, rfl, h⟩

/-- Steps on a state that succeed one after the other each succeed. -/
theorem exists_of_step_eq_ok {τ β : Type} {m : StateT τ (Except ε) α}
    {g : α → StateT τ (Except ε) β} {s s' : τ} {b : β} (h : (m >>= g) s = .ok (b, s')) :
    ∃ a s₁, m s = .ok (a, s₁) ∧ g a s₁ = .ok (b, s') := by
  obtain ⟨⟨a, s₁⟩, ha, hb⟩ := exists_of_bind_eq_ok h
  exact ⟨a, s₁, ha, hb⟩

/-- Two runs that succeed after one first step go on from one result. -/
theorem exists_of_same_bind {β : Type} {x x' : Except ε α} {g : α → Except ε σ}
    {g' : α → Except ε β} {b : σ} {c : β} (hx : x = x') (h : (x >>= g) = .ok b)
    (h' : (x' >>= g') = .ok c) : ∃ a, g a = .ok b ∧ g' a = .ok c := by
  subst hx
  obtain ⟨a, rfl, h⟩ := exists_of_bind_eq_ok h
  exact ⟨a, h, h'⟩

/-- A step whose result is mapped succeeds with the image of its result. -/
theorem exists_of_map_eq_ok {β : Type} {x : Except ε α} {f : α → β} {b : β}
    (h : (do return f (← x)) = Except.ok b) : ∃ a, x = .ok a ∧ f a = b := by
  obtain ⟨a, ha, hb⟩ := exists_of_bind_eq_ok h
  exact ⟨a, ha, Except.ok.inj hb⟩

/-- A result that is changed succeeds where the result does. -/
theorem isOk_map_iff {β : Type} {x : Except ε α} {f : α → β} :
    (∃ b, (do return f (← x)) = Except.ok b) ↔ ∃ a, x = .ok a := by
  constructor
  · rintro ⟨b, h⟩
    obtain ⟨a, ha, -⟩ := exists_of_map_eq_ok h
    exact ⟨a, ha⟩
  · rintro ⟨a, rfl⟩
    exact ⟨f a, rfl⟩

/-- A result that is changed fails where the result does, with the same error. -/
theorem map_eq_error_iff {β : Type} {x : Except ε α} {f : α → β} {e : ε} :
    (do return f (← x)) = Except.error e ↔ x = .error e := by
  cases x with
  | error e' => simp
  | ok a => simp [ok_bind, pure, Except.pure]

/-- A result is a success where it is no error. -/
theorem exists_eq_ok_iff {x : Except ε α} : (∃ a, x = .ok a) ↔ ∀ e, x ≠ .error e := by
  cases x with
  | error e => simp
  | ok a => simp

/-- A result that tests as a success is one. -/
theorem exists_of_isOk {x : Except ε α} (h : x.isOk = true) : ∃ a, x = .ok a := by
  cases x with
  | error e => cases h
  | ok a => exact ⟨a, rfl⟩

/-- The value of a result as an option is there where the result is a success. -/
theorem toOption_eq_some_iff {x : Except ε α} {a : α} : x.toOption = some a ↔ x = .ok a := by
  cases x with
  | error e => simp [Except.toOption]
  | ok b => simp [Except.toOption]

/-- Behind renamed errors, a success was one before. -/
theorem eq_ok_of_mapError {x : Except ε α} {encode : ε → σ} {a : α}
    (h : x.mapError encode = .ok a) : x = .ok a := by
  cases x with
  | error e => cases h
  | ok b =>
    cases h
    rfl

/-- Renaming errors leaves successes alone. -/
theorem mapError_eq_ok_iff {x : Except ε α} {encode : ε → σ} {a : α} :
    x.mapError encode = .ok a ↔ x = .ok a := by
  refine ⟨eq_ok_of_mapError, ?_⟩
  rintro rfl
  rfl

/-- Behind renamed errors, an error is one that was renamed. -/
theorem mapError_eq_error_iff {x : Except ε α} {encode : ε → σ} {e' : σ} :
    x.mapError encode = .error e' ↔ ∃ e, x = .error e ∧ encode e = e' := by
  cases x with
  | error e => simp [Except.mapError]
  | ok a => simp [Except.mapError]

/-- What follows a step matters on its result only. -/
theorem bind_congr_ok {x : Except ε α} {g g' : α → Except ε σ}
    (h : ∀ a, x = .ok a → g a = g' a) : (x >>= g) = (x >>= g') := by
  cases x with
  | error e => rfl
  | ok a => exact h a rfl

/-- A step that succeeds, followed by one that does, succeeds. -/
theorem bind_isOk {x : Except ε α} {g : α → Except ε σ} (h : ∃ a, x = .ok a)
    (hg : ∀ a, ∃ b, g a = .ok b) : ∃ b, (x >>= g) = .ok b := by
  obtain ⟨a, rfl⟩ := h
  exact hg a

/-- Two steps succeed where the first does and the second does with what it gave. -/
theorem bind_isOk_iff {x : Except ε α} {g : α → Except ε σ} :
    (∃ b, (x >>= g) = .ok b) ↔ ∃ a, x = .ok a ∧ ∃ b, g a = .ok b := by
  constructor
  · rintro ⟨b, h⟩
    obtain ⟨a, ha, hb⟩ := exists_of_bind_eq_ok h
    exact ⟨a, ha, b, hb⟩
  · rintro ⟨a, rfl, hb⟩
    exact hb

/-- Two steps fail where the first does, or where it succeeds and the second fails. -/
theorem bind_eq_error_iff {x : Except ε α} {g : α → Except ε σ} {e : ε} :
    (x >>= g) = .error e ↔ x = .error e ∨ ∃ a, x = .ok a ∧ g a = .error e := by
  cases x with
  | error e' => simp [error_bind]
  | ok a => simp [ok_bind]

/-- A loop that collects results succeeds where each item does. -/
theorem mapM_isOk {g : α → Except ε σ} {l : List α} (h : ∀ a ∈ l, ∃ b, g a = .ok b) :
    ∃ bs, l.mapM g = .ok bs := by
  induction l with
  | nil => exact ⟨[], rfl⟩
  | cons a l ih =>
    obtain ⟨b, hb⟩ := h a List.mem_cons_self
    obtain ⟨bs, hbs⟩ := ih fun c hc => h c (List.mem_cons_of_mem a hc)
    rw [List.mapM_cons, hb, hbs]
    exact ⟨b :: bs, rfl⟩

/-- Steps that all give a result give the list of these. -/
theorem mapM_eq_ok {g : α → Except ε σ} {r : α → σ} {l : List α} (h : ∀ a ∈ l, g a = .ok (r a)) :
    l.mapM g = .ok (l.map r) := by
  induction l with
  | nil => rfl
  | cons a l ih =>
    rw [List.map_cons, List.mapM_cons, h a List.mem_cons_self,
      ih fun b hb => h b (List.mem_cons_of_mem a hb)]
    rfl

/-- Steps over the images of a list give the images of their results. -/
theorem mapM_map {β τ : Type} {g : β → Except ε τ} {f : α → β} {r : α → τ} {l : List α}
    (h : ∀ a ∈ l, g (f a) = .ok (r a)) : (l.map f).mapM g = .ok (l.map r) := by
  rw [List.mapM_map]
  exact mapM_eq_ok h

/-- Steps over two lists that agree item by item have one outcome. -/
theorem mapM_eq_of_forall₂ {β γ : Type} {R : α → β → Prop} {as : List α} {bs : List β}
    (h : List.Forall₂ R as bs) {f : α → Except ε γ} {g : β → Except ε γ}
    (hf : ∀ a b, R a b → f a = g b) : as.mapM f = bs.mapM g := by
  induction h with
  | nil => rfl
  | cons hab _ ih => rw [List.mapM_cons, List.mapM_cons, hf _ _ hab, ih]

/-- What stands in the first of two lists has a partner in the second. -/
theorem exists_mem_of_forall₂ {β : Type} {R : α → β → Prop} {as : List α} {bs : List β}
    (h : List.Forall₂ R as bs) {a : α} (ha : a ∈ as) : ∃ b ∈ bs, R a b := by
  induction h with
  | nil => cases ha
  | cons hab _ ih =>
    rcases List.mem_cons.mp ha with rfl | ha
    · exact ⟨_, List.mem_cons_self, hab⟩
    · obtain ⟨b, hb, hr⟩ := ih ha
      exact ⟨b, List.mem_cons_of_mem _ hb, hr⟩

/-- Lists whose items have the same images have the same images in the same order. -/
theorem map_eq_of_forall₂ {β γ : Type} {f : α → γ} {g : β → γ} {as : List α} {bs : List β}
    (h : List.Forall₂ (fun a b => f a = g b) as bs) : as.map f = bs.map g := by
  have hequal : List.Forall₂ (· = ·) (as.map f) (bs.map g) :=
    List.forall₂_map_left_iff.mpr (List.forall₂_map_right_iff.mpr h)
  rwa [List.forall₂_eq_eq_eq] at hequal

/-- Steps over a list that succeed give one result each. -/
theorem forall₂_of_mapM {g : α → Except ε σ} {l : List α} {bs : List σ} (h : l.mapM g = .ok bs) :
    List.Forall₂ (fun a b => g a = .ok b) l bs := by
  induction l generalizing bs with
  | nil =>
    obtain rfl := Except.ok.inj h
    exact .nil
  | cons a l ih =>
    rw [List.mapM_cons] at h
    obtain ⟨b, hb, h⟩ := exists_of_bind_eq_ok h
    obtain ⟨bs', hbs, h⟩ := exists_of_bind_eq_ok h
    obtain rfl := Except.ok.inj h
    exact .cons hb (ih hbs)

/-- A loop that collects results gives those of the items in their order. -/
theorem mapM_eq_ok_iff {g : α → Except ε σ} {l : List α} {bs : List σ} :
    l.mapM g = .ok bs ↔ List.Forall₂ (fun a b => g a = .ok b) l bs := by
  refine ⟨forall₂_of_mapM, fun h => ?_⟩
  induction h with
  | nil => rfl
  | cons hab _ ih =>
    rw [List.mapM_cons, hab, ih]
    rfl

/-- Each result of steps is that of one of them. -/
theorem exists_of_mem_mapM {g : α → Except ε σ} {l : List α} {bs : List σ} (h : l.mapM g = .ok bs)
    {b : σ} (hb : b ∈ bs) : ∃ a ∈ l, g a = .ok b :=
  exists_mem_of_forall₂ (forall₂_of_mapM h).flip hb

/-- All results of steps have what each single result has. -/
theorem forall_mem_of_mapM {g : α → Except ε σ} {P : σ → Prop} {l : List α} {bs : List σ}
    (hg : ∀ a ∈ l, ∀ b, g a = .ok b → P b) (h : l.mapM g = .ok bs) : ∀ b ∈ bs, P b := by
  intro b hb
  obtain ⟨a, ha, hab⟩ := exists_of_mem_mapM h hb
  exact hg a ha b hab

/-- Each of several steps has its result among theirs. -/
theorem exists_mem_of_mapM {g : α → Except ε σ} {l : List α} {bs : List σ} (h : l.mapM g = .ok bs)
    {a : α} (ha : a ∈ l) : ∃ b ∈ bs, g a = .ok b :=
  exists_mem_of_forall₂ (forall₂_of_mapM h) ha

/-- Steps over a list succeed exactly if each of them does. -/
theorem mapM_isOk_iff {g : α → Except ε σ} {l : List α} :
    (∃ bs, l.mapM g = .ok bs) ↔ ∀ a ∈ l, ∃ b, g a = .ok b := by
  refine ⟨?_, mapM_isOk⟩
  rintro ⟨bs, h⟩ a ha
  obtain ⟨b, -, hb⟩ := exists_mem_of_mapM h ha
  exact ⟨b, hb⟩

/-- Steps over a list fail as the first of them does that fails. -/
theorem mapM_eq_error_iff {g : α → Except ε σ} {l : List α} {e : ε} : l.mapM g = .error e ↔
    ∃ done a rest, l = done ++ a :: rest ∧ (∀ b ∈ done, ∃ c, g b = .ok c) ∧ g a = .error e := by
  constructor
  · intro h
    induction l with
    | nil => cases h
    | cons a l ih =>
      rw [List.mapM_cons] at h
      rcases bind_eq_error_iff.mp h with ha | ⟨b, hb, h⟩
      · exact ⟨[], a, l, rfl, List.forall_mem_nil _, ha⟩
      · obtain hl | ⟨_, -, h⟩ := bind_eq_error_iff.mp h
        · obtain ⟨done, c, rest, rfl, hdone, hc⟩ := ih hl
          exact ⟨a :: done, c, rest, rfl, List.forall_mem_cons.mpr ⟨⟨b, hb⟩, hdone⟩, hc⟩
        · cases h
  · rintro ⟨done, a, rest, rfl, hdone, ha⟩
    obtain ⟨bs, hbs⟩ := mapM_isOk hdone
    rw [List.mapM_append, hbs, List.mapM_cons, ha]
    rfl

/-- What stands beside an item is the result of the step on it. -/
theorem eq_ok_of_mem_zip {g : α → Except ε σ} {l : List α} {bs : List σ} (h : l.mapM g = .ok bs)
    {a : α} {b : σ} (hab : (a, b) ∈ l.zip bs) : g a = .ok b :=
  List.forall₂_zip (forall₂_of_mapM h) hab

/-- What a step gives, if it gives anything, has a property. -/
def Yields (P : α → Prop) (x : Except ε α) : Prop := ∀ a, x = .ok a → P a

namespace Yields

variable {P : α → Prop} {Q : σ → Prop} {x : Except ε α} {g : α → Except ε σ}

/-- A success yields what its value satisfies. -/
theorem ok {a : α} (h : P a) : Yields P (.ok a : Except ε α) := by
  intro b hb
  obtain rfl := Except.ok.inj hb
  exact h

/-- An error yields anything. -/
theorem error (e : ε) : Yields P (.error e) := by
  intro b hb
  cases hb

/-- A result yields its own value. -/
theorem self : Yields (fun a => x = .ok a) x := fun _ h => h

/-- What one step yields and the next keeps, both yield together. -/
theorem bind (h : Yields P x) (hg : ∀ a, P a → Yields Q (g a)) : Yields Q (x >>= g) := by
  intro b hb
  obtain ⟨a, ha, hb⟩ := exists_of_bind_eq_ok hb
  exact hg a (h a ha) b hb

/-- A step of which nothing has to be known. -/
theorem next (hg : ∀ a, Yields Q (g a)) : Yields Q (x >>= g) := by
  intro b hb
  obtain ⟨a, -, hb⟩ := exists_of_bind_eq_ok hb
  exact hg a b hb

/-- A loop yields an invariant that each of its steps keeps. -/
theorem foldlM {I : σ → Prop} {step : σ → α → Except ε σ} {l : List α} {s : σ}
    (h : ∀ a ∈ l, ∀ s, I s → Yields I (step s a)) (hs : I s) : Yields I (l.foldlM step s) := by
  induction l generalizing s with
  | nil => exact ok hs
  | cons a rest ih =>
    rw [List.foldlM_cons]
    exact (h a List.mem_cons_self s hs).bind fun s hs =>
      ih (fun b hb => h b (List.mem_cons_of_mem a hb)) hs

/-- Renaming errors leaves what is yielded alone. -/
theorem mapError {ε' : Type} {encode : ε → ε'} (h : Yields P x) : Yields P (x.mapError encode) :=
  fun a ha => h a (eq_ok_of_mapError ha)

/-- A check in front of a step. -/
theorem check {c : Prop} [Decidable c] {y : Except ε Unit} {k : Unit → Except ε σ}
    (h : Yields Q (k ())) : Yields Q (if c then y >>= k else k ()) := by
  split
  · exact next fun _ => h
  · exact h

/-- What the change of a value satisfies, the changed result yields. -/
theorem map {f : α → σ} (h : ∀ a, Q (f a)) : Yields Q (x.map f) := by
  cases x with
  | error e => exact error e
  | ok a => exact ok (h a)

/-- A loop that collects results yields what each of them yields. -/
theorem mapM {l : List α} (h : ∀ a ∈ l, Yields Q (g a)) :
    Yields (fun bs => ∀ b ∈ bs, Q b) (l.mapM g) := by
  intro bs hbs b hb
  obtain ⟨a, ha, hab⟩ := exists_of_mem_mapM hbs hb
  exact h a ha b hab

end Yields

/-- A step that fails does so with certain errors only. -/
def FailsWith (P : ε → Prop) (x : Except ε α) : Prop := ∀ e, x = .error e → P e

namespace FailsWith

variable {P : ε → Prop} {x : Except ε α} {g : α → Except ε σ}

/-- A success fails with anything. -/
theorem ok (a : α) : FailsWith P (.ok a) := by
  intro e he
  cases he

/-- An error fails with what it satisfies. -/
theorem error {e : ε} (h : P e) : FailsWith P (.error e : Except ε α) := by
  intro e' he
  cases he
  exact h

/-- Two steps fail with what each of them fails with. -/
theorem bind (h : FailsWith P x) (hg : ∀ a, x = .ok a → FailsWith P (g a)) :
    FailsWith P (x >>= g) := by
  intro e he
  cases x with
  | error e' =>
    obtain rfl : e' = e := Except.error.inj he
    exact h e' rfl
  | ok a => exact hg a rfl e he

/-- Renamed errors fail with what the renaming makes of the old ones. -/
theorem mapError {ε' : Type} {P' : ε' → Prop} {encode : ε → ε'} (h : FailsWith P x)
    (hP : ∀ e, P e → P' (encode e)) : FailsWith P' (x.mapError encode) := by
  intro e' he
  cases x with
  | error e =>
    cases he
    exact hP e (h e rfl)
  | ok a => cases he

/-- Steps over a state fail as one of them does. -/
theorem foldlM {step : σ → α → Except ε σ} {l : List α} {s : σ}
    (h : ∀ s, ∀ a, FailsWith P (step s a)) : FailsWith P (l.foldlM step s) := by
  intro e he
  obtain ⟨_, a, _, s', -, -, ha⟩ := exists_of_foldlM_eq_error he
  exact h s' a e ha

/-- Several steps fail as one of them does. -/
theorem mapM {l : List α} (h : ∀ a ∈ l, FailsWith P (g a)) : FailsWith P (l.mapM g) := by
  induction l with
  | nil => exact ok []
  | cons a l ih =>
    rw [List.mapM_cons]
    apply (h a List.mem_cons_self).bind
    intro b _
    apply (ih fun c hc => h c (List.mem_cons_of_mem a hc)).bind
    intro bs _
    exact ok (b :: bs)

end FailsWith

end BindGen

import BindGen.Proofs.Run.Trace

/-!
# Runs that may fail

What can be said of a run however it ends: which errors it may end with, and how the workspace that
it leaves is related to the one that it started in. Both are told step by step.
-/

namespace BindGen.Run

variable {ε ε' α β : Type} {w w' w₁ : Workspace}

/-- A run that fails does so with certain errors only. -/
def Raises (P : ε → Prop) (x : Run ε α) : Prop :=
  ∀ w e w', x w = (.error e, w') → P e

/-- However a run ends, the workspace that it leaves is related to the one that it started in. -/
def Leaves (R : Workspace → Workspace → Prop) (x : Run ε α) : Prop := ∀ w, R w (x w).2

/-- What fails in two steps fails in one of them. -/
theorem error_of_bind {x : Run ε α} {f : α → Run ε β} {e : ε}
    (h : (x >>= f) w = (.error e, w')) :
    x w = (.error e, w') ∨ ∃ a w₁, x w = (.ok a, w₁) ∧ f a w₁ = (.error e, w') := by
  change (ExceptT.bindCont f (x w).1) (x w).2 = _ at h
  rcases hx : x w with ⟨result, next⟩
  rw [hx] at h
  cases result with
  | error e' =>
    cases h
    exact .inl rfl
  | ok a => exact .inr ⟨a, next, rfl, h⟩

/-- Nothing comes behind a step that fails. -/
theorem bind_of_error {x : Run ε α} {f : α → Run ε β} {e : ε} (h : x w = (.error e, w₁)) :
    (x >>= f) w = (.error e, w₁) := by
  change ExceptT.bindCont f (x w).1 (x w).2 = _
  rw [h]
  rfl

/-- A run that fails still does so under another name of its error. -/
theorem lift_of_error {x : Run ε α} {encode : ε → ε'} {e : ε} (h : x w = (.error e, w₁)) :
    lift encode x w = (.error (encode e), w₁) := by
  rw [lift, h]

/-- A result that is an error fails under the name that it is given. -/
theorem orElse_of_error {x : Except ε α} {encode : ε → ε'} {e : ε} (h : x = .error e) :
    orElse encode x w = (.error (encode e), w) := by
  rw [h]
  rfl

/-! ## The errors of a run -/

namespace Raises

variable {P : ε → Prop} {P' : ε' → Prop}

/-- Giving a value raises nothing. -/
theorem pure (a : α) : Raises P (Pure.pure a : Run ε α) := fun _ _ _ h => by cases h

/-- Logging raises nothing. -/
theorem log (part : String) (level : Level) (text : String) :
    Raises P (Run.log part level text : Run ε Unit) := fun _ _ _ h => by cases h

/-- Looking at the files raises nothing. -/
theorem files : Raises P (Run.files : Run ε Tree) := fun _ _ _ h => by cases h

/-- A result raises what its error satisfies. -/
theorem ofExcept {x : Except ε α} (h : ∀ e, x = .error e → P e) : Raises P (Run.ofExcept x) := by
  intro w e w' hx
  cases hx
  exact h e rfl

/-- A result with renamed errors raises what every new name satisfies. -/
theorem orElse {encode : ε → ε'} {x : Except ε α} (h : ∀ e, P' (encode e)) :
    Raises P' (Run.orElse encode x) := by
  refine ofExcept fun e he => ?_
  cases x with
  | error cause =>
    cases he
    exact h cause
  | ok a => cases he

/-- A run with renamed errors raises what every new name satisfies. -/
theorem lift {encode : ε → ε'} {x : Run ε α} (h : ∀ e, P' (encode e)) :
    Raises P' (Run.lift encode x) := by
  intro w e w' hx
  rw [Run.lift] at hx
  split at hx
  · cases hx
  · cases hx
    exact h _

/-- Two runs raise what each of them raises. -/
theorem bind {x : Run ε α} {f : α → Run ε β} (hx : Raises P x) (hf : ∀ a, Raises P (f a)) :
    Raises P (x >>= f) := by
  intro w e w' h
  obtain h | ⟨a, w₁, -, h⟩ := error_of_bind h
  · exact hx w e w' h
  · exact hf a w₁ e w' h

/-- A log line in front of a run raises nothing more. -/
theorem logIf {c : Prop} [Decidable c] {part : String} {level : Level} {text : String}
    {x : Run ε α} (hx : Raises P x) :
    Raises P (if c then (do Run.log part level text; x) else x) := by
  split
  · exact (log part level text).bind fun _ => hx
  · exact hx

/-- A loop raises what each of its runs raises. -/
theorem mapM {f : α → Run ε β} (hf : ∀ a, Raises P (f a)) (as : List α) : Raises P (as.mapM f) := by
  induction as with
  | nil => exact pure []
  | cons a as ih =>
    rw [List.mapM_cons]
    exact (hf a).bind fun b => ih.bind fun bs => pure (b :: bs)

end Raises

/-! ## What a run leaves -/

namespace Leaves

variable {R : Workspace → Workspace → Prop}

/-- What a run leaves holds of each of its outcomes. -/
theorem of_eq {x : Run ε α} {result : Except ε α} (h : Leaves R x) (hx : x w = (result, w')) :
    R w w' := by
  have := h w
  rwa [hx] at this

/-- Giving a value leaves the workspace alone. -/
theorem pure [Std.Refl R] (a : α) : Leaves R (Pure.pure a : Run ε α) := fun w => refl_of R w

/-- A result that is at hand leaves the workspace alone. -/
theorem ofExcept [Std.Refl R] (x : Except ε α) : Leaves R (Run.ofExcept x) := fun w => refl_of R w

/-- Looking at the files leaves the workspace alone. -/
theorem files [Std.Refl R] : Leaves R (Run.files : Run ε Tree) := fun w => refl_of R w

/-- Renaming errors changes nothing about what is left. -/
theorem lift {encode : ε → ε'} {x : Run ε α} (h : Leaves R x) : Leaves R (Run.lift encode x) := by
  intro w
  have hx := h w
  rcases hw : x w with ⟨_ | a, next⟩ <;> rw [hw] at hx
  · rw [lift_of_error hw]
    exact hx
  · rw [lift_of_ok hw]
    exact hx

/-- Two runs leave what each of them leaves, one after the other. -/
theorem bind [IsTrans Workspace R] {x : Run ε α} {f : α → Run ε β} (hx : Leaves R x)
    (hf : ∀ a, Leaves R (f a)) : Leaves R (x >>= f) := by
  intro w
  have hfirst := hx w
  rcases hw : x w with ⟨_ | a, next⟩ <;> rw [hw] at hfirst
  · rw [bind_of_error hw]
    exact hfirst
  · rw [bind_of_ok hw]
    exact trans_of R hfirst (hf a next)

/-- What comes behind a step that leaves everything as it is, if that succeeds. -/
theorem orElse_bind [Std.Refl R] {encode : ε → ε'} {x : Except ε α} {f : α → Run ε' β}
    (hf : ∀ a, x = .ok a → Leaves R (f a)) : Leaves R (Run.orElse encode x >>= f) := by
  intro w
  cases x with
  | error e =>
    rw [bind_of_error (orElse_of_error rfl)]
    exact refl_of R w
  | ok a =>
    rw [bind_of_ok (orElse_of_ok rfl)]
    exact hf a rfl w

/-- A loop leaves what each of its runs leaves, one after the other. -/
theorem mapM [Std.Refl R] [IsTrans Workspace R] {f : α → Run ε β} {as : List α}
    (hf : ∀ a ∈ as, Leaves R (f a)) : Leaves R (as.mapM f) := by
  induction as with
  | nil => exact pure []
  | cons a as ih =>
    rw [List.mapM_cons]
    refine (hf a List.mem_cons_self).bind fun b => ?_
    exact (ih fun c hc => hf c (List.mem_cons_of_mem a hc)).bind fun bs => pure (b :: bs)

end Leaves

end BindGen.Run

/-!
## Runs that change nothing

Some runs only look at files, note messages and start programs. Whether they succeed or fail, the
directories are as before, and so are all files other than log files; and no emitter is called.
-/

namespace BindGen

namespace Tree

/-- Two trees have the same directories and, apart from some places, the same files. -/
structure Apart (changed : List String → Prop) (t t' : Tree) : Prop where
  home : t'.home = t.home
  directory : ∀ q, t'.node? q = some .directory ↔ t.node? q = some .directory
  others : ∀ q, ¬changed q → t'.node? q = t.node? q

variable {changed : List String → Prop} {t t' t'' : Tree} {p : Path}

namespace Apart

private theorem refl (changed : List String → Prop) (t : Tree) : Apart changed t t :=
  ⟨rfl, fun _ => Iff.rfl, fun _ _ => rfl⟩

private theorem trans (h : Apart changed t t') (h' : Apart changed t' t'') :
    Apart changed t t'' where
  home := h'.home.trans h.home
  directory q := (h'.directory q).trans (h.directory q)
  others q hq := (h'.others q hq).trans (h.others q hq)

private theorem mono {changed' : List String → Prop} (h : Apart changed t t')
    (hc : ∀ q, changed q → changed' q) : Apart changed' t t' where
  home := h.home
  directory := h.directory
  others q hq := h.others q fun hx => hq (hc q hx)

/-- A path leads to the same place in both. -/
theorem locate_ok_iff (h : Apart changed t t') {q : List String} :
    t'.locate p = .ok q ↔ t.locate p = .ok q :=
  ⟨locate_ok_of_directories h.home.symm fun x => (h.directory x).mp,
    locate_ok_of_directories h.home fun x => (h.directory x).mpr⟩

end Apart

private theorem apart_write {content : Bytes} (h : t.write p content = .ok t') :
    ∃ q, t.locate p = .ok q ∧ Apart (· = q) t t' := by
  obtain ⟨q, hq, hs, -⟩ := spares_write h
  rw [write, hq] at h
  dsimp only at h
  split at h
  · cases h
  · next hd =>
    obtain rfl := Except.ok.inj h
    refine ⟨q, hq, hs.home, fun x => ⟨fun hx => ?_, hs.directory x⟩, fun x hx => ?_⟩
    · rw [node?_put] at hx
      split at hx
      · next hnil =>
        rw [hnil]
        rfl
      · split at hx
        · cases hx
        · exact hx
    · rw [node?_put, if_neg hx]
      split
      · next hnil =>
        rw [hnil]
        rfl
      · rfl

/-- Adding to a file changes no other place. -/
theorem apart_append {content : Bytes} (h : t.append p content = .ok t') :
    ∃ q, t.locate p = .ok q ∧ Apart (· = q) t t' := by
  rw [append] at h
  split at h
  · exact apart_write h
  · exact apart_write h
  · cases h

end Tree

/-- From one workspace to another messages are noted and programs started, and nothing else is
done. -/
structure Untouched (w w' : Workspace) : Prop where
  journal : w'.journal = w.journal
  programs : w'.programs = w.programs
  calls : w'.calls = w.calls
  files : Tree.Apart (LogPlace w.journal w.files) w.files w'.files

namespace Untouched

variable {w w₁ w' : Workspace}

private theorem of_files (hj : w'.journal = w.journal) (hp : w'.programs = w.programs)
    (hc : w'.calls = w.calls) (hf : w'.files = w.files) : Untouched w w' :=
  ⟨hj, hp, hc, hf ▸ .refl _ w'.files⟩

private theorem refl (w : Workspace) : Untouched w w := of_files rfl rfl rfl rfl

/-- What two steps leave untouched, both leave untouched together. -/
theorem trans (h : Untouched w w₁) (h' : Untouched w₁ w') : Untouched w w' where
  journal := h'.journal.trans h.journal
  programs := h'.programs.trans h.programs
  calls := h'.calls.trans h.calls
  files := by
    refine h.files.trans (h'.files.mono ?_)
    rintro q ⟨level, p, hs, hq⟩
    exact ⟨level, p, h.journal ▸ hs, h.files.locate_ok_iff.mp hq⟩

/-- No step at all leaves everything untouched. -/
instance : Std.Refl Untouched := ⟨refl⟩

/-- Steps that each leave everything untouched do so together. -/
instance : IsTrans Workspace Untouched := ⟨fun _ _ _ => trans⟩

private theorem accept {d : Delivery}
    (hd : ∀ p line, d = .file p line → ∃ level, Sink.file level p ∈ w.journal.sinks) :
    Untouched w (w.accept d) := by
  cases d with
  | console line => exact of_files rfl rfl rfl rfl
  | file p line =>
    rw [Workspace.accept]
    split
    · next files ha =>
      obtain ⟨q, hq, hs⟩ := Tree.apart_append ha
      obtain ⟨level, hsink⟩ := hd p line rfl
      refine ⟨rfl, rfl, rfl, hs.mono ?_⟩
      rintro x rfl
      exact ⟨level, p, hsink, hq⟩
    · exact refl w

/-- A message is no file that is written and no call. -/
theorem note (w : Workspace) (m : Message) : Untouched w (w.note m) :=
  Workspace.note_of_accept (fun _ _ h => h.journal) (fun _ _ hd => accept hd) w m

end Untouched

namespace Run

variable {ε : Type}

/-- Logging writes no file and makes no call. -/
theorem untouched_log (part : String) (level : Level) (text : String) :
    Leaves Untouched (log part level text : Run ε Unit) := fun w => .note w _

/-- Starting a program writes no file and makes no call. -/
theorem untouched_start (command : List String) :
    Leaves Untouched (start command : Run ε ProgramReply) := fun _ => .of_files rfl rfl rfl rfl

/-- A log line in front of a run touches nothing more than the run. -/
theorem untouched_logIf {α : Type} {c : Prop} [Decidable c] {part : String} {level : Level}
    {text : String} {x : Run ε α} (hx : Leaves Untouched x) :
    Leaves Untouched (if c then (do log part level text; x) else x) := by
  split
  · exact (untouched_log part level text).bind fun _ => hx
  · exact hx

end Run

end BindGen

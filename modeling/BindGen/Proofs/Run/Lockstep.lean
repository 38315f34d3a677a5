import BindGen.Proofs.File.Twins
import BindGen.Proofs.Run.Outcome
import Mathlib.Data.List.Forall2

/-!
# Runs side by side

Two workspaces are alike if they differ in nothing but what files hold, and there in a way that is
known and that adding to a file keeps. Steps that fail alike and write contents that differ in this
way keep workspaces alike, so the same holds for runs that are put together from such steps.
-/

namespace BindGen

/-! ## Trees -/

/-- A relation between contents of files: it holds of the same contents, and adding the same bytes
at the ends keeps it. -/
structure KeptByAppend (R : Bytes → Bytes → Prop) : Prop where
  refl : ∀ a, R a a
  append : ∀ {a b}, R a b → ∀ more, R (a ++ more) (b ++ more)

/-- Two nodes are alike: both are directories, or files whose contents are related. -/
inductive Node.Alike (R : Bytes → Bytes → Prop) : Node → Node → Prop where
  | directory : Node.Alike R .directory .directory
  | file {a b : Bytes} (h : R a b) : Node.Alike R (.file a) (.file b)

/-- Two trees are alike: they have the same places, with nodes that are alike. -/
structure Tree.Alike (R : Bytes → Bytes → Prop) (t t' : Tree) : Prop where
  home : t'.home = t.home
  entries : List.Forall₂ (fun e e' => e'.1 = e.1 ∧ Node.Alike R e.2 e'.2) t.entries t'.entries

namespace Tree.Alike

variable {R : Bytes → Bytes → Prop} {t t' : Tree}

private theorem refl (hR : KeptByAppend R) (t : Tree) : Alike R t t where
  home := rfl
  entries := List.forall₂_same.mpr fun e _ => ⟨rfl, by
    cases e.2 with
    | file content => exact .file (hR.refl content)
    | directory => exact .directory⟩

private theorem lookup (h : Alike R t t') (q : List String) :
    Option.Rel (Node.Alike R) (t.entries.lookup q) (t'.entries.lookup q) := by
  obtain ⟨-, hentries⟩ := h
  generalize t.entries = entries at hentries
  generalize t'.entries = entries' at hentries
  induction hentries with
  | nil => exact .none
  | @cons e e' rest rest' he _ ih =>
    rw [List.lookup_cons, List.lookup_cons, he.1]
    split
    · exact .some he.2
    · exact ih

-- What stands at a place: nothing, or directories, or files with related contents.
private theorem node?_cases (h : Alike R t t') (q : List String) :
    (t.node? q = none ∧ t'.node? q = none) ∨
      (t.node? q = some .directory ∧ t'.node? q = some .directory) ∨
        ∃ a b, t.node? q = some (.file a) ∧ t'.node? q = some (.file b) ∧ R a b := by
  rw [Tree.node?, Tree.node?]
  split
  · exact .inr (.inl ⟨rfl, rfl⟩)
  · have hlookup := h.lookup q
    generalize t.entries.lookup q = n at hlookup
    generalize t'.entries.lookup q = n' at hlookup
    cases hlookup with
    | none => exact .inl ⟨rfl, rfl⟩
    | some hn =>
      cases hn with
      | directory => exact .inr (.inl ⟨rfl, rfl⟩)
      | file hab => exact .inr (.inr ⟨_, _, rfl, rfl, hab⟩)

private theorem follow_eq (h : Alike R t t') (start components : List String) :
    t.follow start components = t'.follow start components := by
  induction components generalizing start with
  | nil => rfl
  | cons c rest ih =>
    cases rest with
    | nil => rfl
    | cons d rest =>
      rw [follow_cons, follow_cons]
      split
      · rfl
      · obtain ⟨hn, hn'⟩ | ⟨hn, hn'⟩ | ⟨a, b, hn, hn', -⟩ := h.node?_cases (next start c)
        · rw [hn, hn']
        · rw [hn, hn']
          exact ih _
        · rw [hn, hn']

/-- A path leads to the same place in both trees. -/
theorem locate_eq (h : Alike R t t') (p : Path) : t.locate p = t'.locate p := by
  rw [locate, locate, componentsBelow?, componentsBelow?, h.home]
  split
  · rfl
  · split
    · rfl
    · split
      · exact h.follow_eq _ _
      · rfl

private theorem put (h : Alike R t t') (q : List String) {n n' : Node} (hn : Node.Alike R n n') :
    Alike R (t.put q n) (t'.put q n') := by
  have hlookup := h.lookup q
  have hsome : (t.entries.lookup q).isSome = (t'.entries.lookup q).isSome := by
    generalize t.entries.lookup q = n at hlookup
    generalize t'.entries.lookup q = n' at hlookup
    cases hlookup <;> rfl
  rw [Tree.put, Tree.put, hsome]
  split
  · refine ⟨h.home, List.forall₂_map_left_iff.mpr (List.forall₂_map_right_iff.mpr ?_)⟩
    refine h.entries.imp fun e e' he => ?_
    obtain ⟨p, old⟩ := e
    obtain ⟨p', old'⟩ := e'
    obtain ⟨rfl : p' = p, hold⟩ := he
    dsimp only
    split
    · exact ⟨rfl, hn⟩
    · exact ⟨rfl, hold⟩
  · exact ⟨h.home, List.rel_append h.entries (.cons ⟨rfl, hn⟩ .nil)⟩

/-- Two steps fail alike, or lead to trees that are alike. -/
def Outcome (R : Bytes → Bytes → Prop) (x y : Except FileError Tree) : Prop :=
  (∃ e, x = .error e ∧ y = .error e) ∨ ∃ u u', x = .ok u ∧ y = .ok u' ∧ Alike R u u'

private theorem write (h : Alike R t t') (p : Path) {a b : Bytes} (hab : R a b) :
    Outcome R (t.write p a) (t'.write p b) := by
  rw [Tree.write, Tree.write, ← h.locate_eq]
  cases t.locate p with
  | error reason => exact .inl ⟨_, rfl, rfl⟩
  | ok q =>
    have hput := h.put q (.file hab)
    dsimp only
    obtain ⟨hn, hn'⟩ | ⟨hn, hn'⟩ | ⟨_, _, hn, hn', -⟩ := h.node?_cases q
    · rw [hn, hn']
      exact .inr ⟨_, _, rfl, rfl, hput⟩
    · rw [hn, hn']
      exact .inl ⟨_, rfl, rfl⟩
    · rw [hn, hn']
      exact .inr ⟨_, _, rfl, rfl, hput⟩

private theorem read (h : Alike R t t') (p : Path) :
    (∃ e, t.read p = .error e ∧ t'.read p = .error e) ∨
      ∃ a b, t.read p = .ok a ∧ t'.read p = .ok b ∧ R a b := by
  rw [Tree.read, Tree.read, ← h.locate_eq]
  cases t.locate p with
  | error reason => exact .inl ⟨_, rfl, rfl⟩
  | ok q =>
    dsimp only
    obtain ⟨hn, hn'⟩ | ⟨hn, hn'⟩ | ⟨a, b, hn, hn', hab⟩ := h.node?_cases q
    · rw [hn, hn']
      exact .inl ⟨_, rfl, rfl⟩
    · rw [hn, hn']
      exact .inl ⟨_, rfl, rfl⟩
    · rw [hn, hn']
      exact .inr ⟨a, b, rfl, rfl, hab⟩

private theorem append (hR : KeptByAppend R) (h : Alike R t t') (p : Path) (more : Bytes) :
    Outcome R (t.append p more) (t'.append p more) := by
  rw [Tree.append, Tree.append]
  obtain ⟨e, hx, hy⟩ | ⟨a, b, hx, hy, hab⟩ := h.read p
  · rw [hx, hy]
    split
    · next he => cases he
    · exact h.write p (hR.refl more)
    · next e' _ he =>
      obtain rfl := Except.error.inj he
      exact .inl ⟨_, rfl, rfl⟩
  · rw [hx, hy]
    exact h.write p (hR.append hab more)

private theorem isDirectory_eq (h : Alike R t t') (p : Path) :
    t.isDirectory p = t'.isDirectory p := by
  rw [isDirectory, isDirectory, find, find, ← h.locate_eq]
  cases t.locate p with
  | error reason => rfl
  | ok q =>
    dsimp only
    obtain ⟨hn, hn'⟩ | ⟨hn, hn'⟩ | ⟨_, _, hn, hn', -⟩ := h.node?_cases q <;> rw [hn, hn']

private theorem makeDirectory (h : Alike R t t') (p : Path) :
    Outcome R (t.makeDirectory p) (t'.makeDirectory p) := by
  rw [Tree.makeDirectory, Tree.makeDirectory, ← h.locate_eq]
  cases t.locate p with
  | error reason => exact .inl ⟨_, rfl, rfl⟩
  | ok q =>
    have hput := h.put q .directory
    dsimp only
    obtain ⟨hn, hn'⟩ | ⟨hn, hn'⟩ | ⟨_, _, hn, hn', -⟩ := h.node?_cases q
    · rw [hn, hn']
      exact .inr ⟨_, _, rfl, rfl, hput⟩
    · rw [hn, hn']
      exact .inl ⟨_, rfl, rfl⟩
    · rw [hn, hn']
      exact .inl ⟨_, rfl, rfl⟩

private theorem ensureDirectory (h : Alike R t t') (p : Path) :
    Outcome R (t.ensureDirectory p) (t'.ensureDirectory p) := by
  rw [Tree.ensureDirectory, Tree.ensureDirectory]
  obtain ⟨e, hx, hy⟩ | ⟨u, u', hx, hy, hu⟩ := h.makeDirectory p
  · rw [hx, hy, ← h.isDirectory_eq]
    dsimp only
    split
    · exact .inl ⟨_, rfl, rfl⟩
    · split
      · exact .inr ⟨_, _, rfl, rfl, h⟩
      · exact .inl ⟨_, rfl, rfl⟩
  · rw [hx, hy]
    exact .inr ⟨_, _, rfl, rfl, hu⟩

private theorem makeDirectoriesFrom (h : Alike R t t') (root : String) (components : List String) :
    (t.makeDirectoriesFrom root components).2 = (t'.makeDirectoriesFrom root components).2 ∧
      Alike R (t.makeDirectoriesFrom root components).1
        (t'.makeDirectoriesFrom root components).1 := by
  induction components with
  | nil =>
    rw [Tree.makeDirectoriesFrom, Tree.makeDirectoriesFrom]
    obtain ⟨e, hx, hy⟩ | ⟨u, u', hx, hy, hu⟩ := h.ensureDirectory ⟨root, []⟩
    · rw [hx, hy]
      exact ⟨rfl, h⟩
    · rw [hx, hy]
      exact ⟨rfl, hu⟩
  | cons c rest ih =>
    rw [Tree.makeDirectoriesFrom, Tree.makeDirectoriesFrom]
    obtain ⟨e, hx, hy⟩ | ⟨u, u', hx, hy, hu⟩ := h.ensureDirectory ⟨root, (c :: rest).reverse⟩
    · rw [hx, hy]
      dsimp only
      split
      · obtain ⟨hfailed, hmade⟩ := ih
        generalize t.makeDirectoriesFrom root rest = x at hfailed hmade
        generalize t'.makeDirectoriesFrom root rest = y at hfailed hmade
        obtain ⟨made, failed⟩ := x
        obtain ⟨made', failed'⟩ := y
        obtain rfl : failed = failed' := hfailed
        cases failed with
        | some e => exact ⟨rfl, hmade⟩
        | none =>
          dsimp only
          obtain ⟨e, hx, hy⟩ | ⟨u, u', hx, hy, hu⟩ :=
            ensureDirectory hmade ⟨root, (c :: rest).reverse⟩
          · rw [hx, hy]
            exact ⟨rfl, hmade⟩
          · rw [hx, hy]
            exact ⟨rfl, hu⟩
      · exact ⟨rfl, h⟩
    · rw [hx, hy]
      exact ⟨rfl, hu⟩

private theorem makeDirectories (h : Alike R t t') (p : Path) :
    (t.makeDirectories p).2 = (t'.makeDirectories p).2 ∧
      Alike R (t.makeDirectories p).1 (t'.makeDirectories p).1 :=
  h.makeDirectoriesFrom p.root p.parts.reverse

end Tree.Alike

/-! ## Workspaces -/

/-- Two workspaces are alike but for related contents of files. -/
structure Workspace.Alike (R : Bytes → Bytes → Prop) (w w' : Workspace) : Prop where
  files : Tree.Alike R w.files w'.files
  programs : w'.programs = w.programs
  commands : w'.commands = w.commands
  calls : w'.calls = w.calls
  journal : w'.journal = w.journal
  console : w'.console = w.console

namespace Workspace.Alike

variable {R : Bytes → Bytes → Prop} {w w' : Workspace}

/-- A workspace is like itself. -/
theorem refl (hR : KeptByAppend R) (w : Workspace) : Alike R w w :=
  ⟨.refl hR w.files, rfl, rfl, rfl, rfl, rfl⟩

private theorem accept (hR : KeptByAppend R) (h : Alike R w w') (d : Delivery) :
    Alike R (w.accept d) (w'.accept d) := by
  cases d with
  | console line => exact { h with console := by simp [Workspace.accept, h.console] }
  | file p line =>
    rw [Workspace.accept, Workspace.accept]
    obtain ⟨e, hx, hy⟩ | ⟨u, u', hx, hy, hu⟩ :=
      h.files.append hR p (Utf8.encode (line ++ "\n").toList)
    · rw [hx, hy]
      exact h
    · rw [hx, hy]
      exact { h with files := hu }

private theorem note (hR : KeptByAppend R) (h : Alike R w w') (m : Message) :
    Alike R (w.note m) (w'.note m) := by
  rw [Workspace.note, Workspace.note, h.journal]
  generalize w.journal.deliveries m = deliveries
  induction deliveries generalizing w w' with
  | nil => exact h
  | cons d rest ih => exact ih (h.accept hR d)

end Workspace.Alike

/-! ## Runs -/

namespace Run

variable {ε ε' α β : Type} {R : Bytes → Bytes → Prop}

/-- From workspaces that are alike two runs end alike, and leave workspaces that are alike. -/
def Lockstep (R : Bytes → Bytes → Prop) (x y : Run ε α) : Prop :=
  ∀ w w', Workspace.Alike R w w' → (x w).1 = (y w').1 ∧ Workspace.Alike R (x w).2 (y w').2

namespace Lockstep

/-- Giving a value reads nothing that may differ. -/
theorem pure (a : α) : Lockstep R (Pure.pure a : Run ε α) (Pure.pure a) := fun _ _ h => ⟨rfl, h⟩

/-- A result that is at hand reads nothing that may differ. -/
theorem ofExcept (x : Except ε α) : Lockstep R (Run.ofExcept x) (Run.ofExcept x) :=
  fun _ _ h => ⟨rfl, h⟩

/-- Runs in lockstep, followed by runs in lockstep, are in lockstep. -/
theorem bind {x y : Run ε α} (h : Lockstep R x y) {f g : α → Run ε β}
    (hf : ∀ a, Lockstep R (f a) (g a)) : Lockstep R (x >>= f) (y >>= g) := by
  intro w w' hw
  obtain ⟨hresult, hw'⟩ := h w w' hw
  change ((ExceptT.bindCont f (x w).1) (x w).2).1 = ((ExceptT.bindCont g (y w').1) (y w').2).1 ∧
    Workspace.Alike R ((ExceptT.bindCont f (x w).1) (x w).2).2
      ((ExceptT.bindCont g (y w').1) (y w').2).2
  rw [← hresult]
  cases (x w).1 with
  | error e => exact ⟨rfl, hw'⟩
  | ok a => exact hf a _ _ hw'

/-- Computations that fail alike, with what comes behind their results. -/
theorem ofExcept_bind {γ : Type} {x : Except ε α} {y : Except ε γ} {f : α → Run ε β}
    {g : γ → Run ε β} (h : (∃ e, x = .error e ∧ y = .error e) ∨
      ∃ a b, x = .ok a ∧ y = .ok b ∧ Lockstep R (f a) (g b)) :
    Lockstep R (Run.ofExcept x >>= f) (Run.ofExcept y >>= g) := by
  obtain ⟨e, rfl, rfl⟩ | ⟨a, b, rfl, rfl, hab⟩ := h
  · exact fun _ _ hw => ⟨rfl, hw⟩
  · exact hab

/-- Runs stay in lockstep when their errors are renamed. -/
theorem lift (encode : ε → ε') {x y : Run ε α} (h : Lockstep R x y) :
    Lockstep R (Run.lift encode x) (Run.lift encode y) := by
  intro w w' hw
  obtain ⟨hresult, hw'⟩ := h w w' hw
  rw [Run.lift, Run.lift]
  generalize x w = a at hresult hw'
  generalize y w' = b at hresult hw'
  obtain ⟨result, next⟩ := a
  obtain ⟨result', next'⟩ := b
  obtain rfl : result = result' := hresult
  cases result with
  | error e => exact ⟨rfl, hw'⟩
  | ok a => exact ⟨rfl, hw'⟩

/-- A loop of runs in lockstep is in lockstep. -/
theorem mapM {f g : α → Run ε β} (h : ∀ a, Lockstep R (f a) (g a)) (as : List α) :
    Lockstep R (as.mapM f) (as.mapM g) := by
  induction as with
  | nil => exact pure []
  | cons a as ih =>
    rw [List.mapM_cons, List.mapM_cons]
    exact (h a).bind fun b => ih.bind fun bs => pure (b :: bs)

/-- Logging is in lockstep where appending to the log files is. -/
theorem log (hR : KeptByAppend R) (part : String) (level : Level) (text : String) :
    Lockstep R (Run.log part level text : Run ε Unit) (Run.log part level text) :=
  fun _ _ h => ⟨rfl, h.note hR _⟩

/-- Starting a program is in lockstep. -/
theorem start (command : List String) :
    Lockstep R (Run.start command : Run ε ProgramReply) (Run.start command) := by
  intro w w' h
  refine ⟨?_, { h with commands := ?_ }⟩
  · rw [Run.start, Run.start, h.programs]
  · rw [Run.start, Run.start, h.commands]

/-- Making directories is in lockstep. -/
theorem makeDirectories (p : Path) :
    Lockstep R (Run.makeDirectories p) (Run.makeDirectories p) := by
  intro w w' h
  obtain ⟨hfailed, hmade⟩ := h.files.makeDirectories p
  rw [Run.makeDirectories, Run.makeDirectories]
  generalize w.files.makeDirectories p = x at hfailed hmade
  generalize w'.files.makeDirectories p = y at hfailed hmade
  obtain ⟨made, failed⟩ := x
  obtain ⟨made', failed'⟩ := y
  obtain rfl : failed = failed' := hfailed
  cases failed with
  | none => exact ⟨rfl, { h with files := hmade }⟩
  | some e => exact ⟨rfl, { h with files := hmade }⟩

/-- Writing contents that are related. -/
theorem writeText (p : Path) {text text' : String}
    (h : R (Utf8.encode text.toList) (Utf8.encode text'.toList)) :
    Lockstep R (Run.writeText p text) (Run.writeText p text') := by
  intro w w' hw
  rw [Run.writeText, Run.writeText]
  obtain ⟨e, hx, hy⟩ | ⟨u, u', hx, hy, hu⟩ := hw.files.write p h
  · rw [hx, hy]
    exact ⟨rfl, hw⟩
  · rw [hx, hy]
    exact ⟨rfl, { hw with files := hu }⟩

end Lockstep
end Run
end BindGen

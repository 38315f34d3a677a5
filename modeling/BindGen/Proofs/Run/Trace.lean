import BindGen.Proofs.File.Growth
import BindGen.Proofs.Run.Fold
import BindGen.Run.Workspace

/-!
# The writes of a run

A run that succeeds writes files one after the other, and in between makes directories and adds
lines to log files. What a file holds in the end is told by the last write that leads to its place,
if it is no log file.
-/

namespace BindGen

variable {w w' w₁ : Workspace}

/-- A place that a log file of a journal has in a tree. -/
def LogPlace (j : Journal) (t : Tree) (q : List String) : Prop :=
  ∃ level p, Sink.file level p ∈ j.sinks ∧ t.locate p = .ok q

/-- What every line leads to that goes to the console or a log file of the journal, a message leads
to. -/
theorem Workspace.note_of_accept {R : Workspace → Workspace → Prop} [Std.Refl R]
    [IsTrans Workspace R] (hj : ∀ a b, R a b → b.journal = a.journal)
    (ha : ∀ (w : Workspace) (d : Delivery),
      (∀ p line, d = .file p line → ∃ level, Sink.file level p ∈ w.journal.sinks) →
        R w (w.accept d)) (w : Workspace) (m : Message) : R w (w.note m) := by
  have hfold (deliveries : List Delivery) (v : Workspace) (hs : v.journal = w.journal)
      (hd : ∀ d ∈ deliveries, ∀ p line, d = .file p line →
        ∃ level, Sink.file level p ∈ w.journal.sinks) : R v (deliveries.foldl accept v) := by
    induction deliveries generalizing v with
    | nil => exact refl_of R v
    | cons d rest ih =>
      have hfirst : R v (v.accept d) := ha v d (hs ▸ hd d List.mem_cons_self)
      exact trans_of R hfirst (ih _ ((hj _ _ hfirst).trans hs) fun e he =>
        hd e (List.mem_cons_of_mem d he))
  refine hfold _ w rfl fun d hd p line he => ?_
  rw [Journal.deliveries] at hd
  split at hd
  · cases hd
  · obtain ⟨sink, hs, rfl⟩ := List.mem_map.mp hd
    cases sink with
    | console level => cases he
    | file level p' =>
      obtain ⟨rfl, -⟩ := Delivery.file.inj he
      exact ⟨level, (List.mem_filter.mp hs).1⟩

/-- From one workspace to another directories are made and messages noted, and nothing else is
written. -/
structure Quiet (w w' : Workspace) : Prop where
  journal : w'.journal = w.journal
  files : Tree.Spares (LogPlace w.journal w'.files) w.files w'.files

namespace Quiet

/-- Steps that change neither journal nor files are quiet. -/
theorem of_files (hj : w'.journal = w.journal) (hf : w'.files = w.files) : Quiet w w' :=
  ⟨hj, hf ▸ .refl _ w'.files⟩

/-- No step at all is quiet. -/
theorem refl (w : Workspace) : Quiet w w := of_files rfl rfl

/-- Two quiet steps are quiet together. -/
theorem trans (h : Quiet w w₁) (h' : Quiet w₁ w') : Quiet w w' where
  journal := h'.journal.trans h.journal
  files := by
    have hlater := h'.files
    rw [h.journal] at hlater
    refine (h.files.mono ?_).trans hlater
    rintro q ⟨level, p, hs, hq⟩
    exact ⟨level, p, hs, hlater.locate_ok hq⟩

private theorem accept {d : Delivery}
    (hd : ∀ p line, d = .file p line → ∃ level, Sink.file level p ∈ w.journal.sinks) :
    Quiet w (w.accept d) := by
  cases d with
  | console line => exact of_files rfl rfl
  | file p line =>
    rw [Workspace.accept]
    split
    · next files ha =>
      obtain ⟨q, hq, hs⟩ := Tree.spares_append ha
      obtain ⟨level, hsink⟩ := hd p line rfl
      refine ⟨rfl, hs.mono ?_⟩
      rintro x rfl
      exact ⟨level, p, hsink, hs.locate_ok hq⟩
    · exact refl w

/-- No step at all is quiet. -/
instance : Std.Refl Quiet := ⟨refl⟩

/-- Quiet steps are quiet together. -/
instance : IsTrans Workspace Quiet := ⟨fun _ _ _ => trans⟩

/-- A message is quiet. -/
theorem note (w : Workspace) (m : Message) : Quiet w (w.note m) :=
  Workspace.note_of_accept (fun _ _ h => h.journal) (fun _ _ hd => accept hd) w m

end Quiet

/-- Files of text by their paths, in the order in which they are written. -/
abbrev TextFiles := List (Path × String)

/-- From one workspace to another files are written, one after the other. -/
inductive Writes : Workspace → TextFiles → Workspace → Prop where
  | nil {w w' : Workspace} : Quiet w w' → Writes w [] w'
  | cons {w w₁ w' : Workspace} {p : Path} {text : String} {files : Tree} {rest : TextFiles} :
      Quiet w w₁ → w₁.files.write p (Utf8.encode text.toList) = .ok files →
      Writes { w₁ with files } rest w' → Writes w ((p, text) :: rest) w'

namespace Writes

variable {a b : TextFiles}

/-- A quiet step in front of writes adds none. -/
theorem of_quiet (h : Quiet w w₁) (h' : Writes w₁ a w') : Writes w a w' := by
  cases h' with
  | nil hq => exact .nil (h.trans hq)
  | cons hq hw hr => exact .cons (h.trans hq) hw hr

/-- Writes behind one another are the writes of both, in that order. -/
theorem append (h : Writes w a w₁) (h' : Writes w₁ b w') : Writes w (a ++ b) w' := by
  induction h with
  | nil hq => exact of_quiet hq h'
  | cons hq hw _ ih => exact .cons hq hw (ih h')

/-- Writes in two parts are those of two steps. -/
theorem split (h : Writes w (a ++ b) w') : ∃ w₁, Writes w a w₁ ∧ Writes w₁ b w' := by
  induction a generalizing w with
  | nil => exact ⟨w, .nil (.refl w), h⟩
  | cons e a ih =>
    cases h with
    | cons hq hw hr =>
      obtain ⟨w₁, ha, hb⟩ := ih hr
      exact ⟨w₁, .cons hq hw ha, hb⟩

/-- Writes leave the journal alone. -/
theorem journal_eq (h : Writes w a w') : w'.journal = w.journal := by
  induction h with
  | nil hq => exact hq.journal
  | cons hq _ _ ih => exact ih.trans hq.journal

/-- Only log files and the files that are written change. -/
theorem spares (h : Writes w a w') :
    Tree.Spares (fun q => LogPlace w'.journal w'.files q ∨
      ∃ f ∈ a, w'.files.locate f.1 = .ok q) w.files w'.files := by
  induction h with
  | nil hq => exact hq.files.mono fun q h => .inl (hq.journal ▸ h)
  | @cons w w₁ w' p text files rest hq hw hr ih =>
    obtain ⟨place, hplace, hs, -⟩ := Tree.spares_write hw
    have hj : w'.journal = w.journal := hr.journal_eq.trans hq.journal
    have hlater : Tree.Spares (fun q => LogPlace w'.journal w'.files q ∨
        ∃ f ∈ (p, text) :: rest, w'.files.locate f.1 = .ok q) _ w'.files :=
      ih.mono fun q h => h.imp_right fun ⟨f, hf, hl⟩ => ⟨f, List.mem_cons_of_mem _ hf, hl⟩
    refine (hq.files.mono ?_).trans ((hs.mono ?_).trans hlater)
    · rintro q ⟨level, p', hsink, hl⟩
      exact .inl ⟨level, p', hj ▸ hsink, hlater.locate_ok (hs.locate_ok hl)⟩
    · rintro q rfl
      exact .inr ⟨(p, text), List.mem_cons_self, hlater.locate_ok (hs.locate_ok hplace)⟩

/-- In the end a file that is written, and is no log file, holds the text of a write that leads to
its place. -/
theorem holds (h : Writes w a w') {q : List String} (hlog : ¬LogPlace w'.journal w'.files q)
    (hq : ∃ f ∈ a, w'.files.locate f.1 = .ok q) :
    ∃ f ∈ a, w'.files.locate f.1 = .ok q ∧
      w'.files.node? q = some (.file (Utf8.encode f.2.toList)) := by
  induction h with
  | nil _ =>
    obtain ⟨f, hf, -⟩ := hq
    cases hf
  | @cons w w₁ w' p text files rest _ hw hr ih =>
    by_cases hlast : ∃ f ∈ rest, w'.files.locate f.1 = .ok q
    · obtain ⟨f, hf, hfound⟩ := ih hlog hlast
      exact ⟨f, List.mem_cons_of_mem _ hf, hfound⟩
    · obtain ⟨f, hf, hl⟩ := hq
      rcases List.mem_cons.mp hf with rfl | hf
      · obtain ⟨place, hplace, hs, hcontent⟩ := Tree.spares_write hw
        have hsame := hr.spares.locate_ok (hs.locate_ok hplace)
        rw [hl] at hsame
        obtain rfl := Except.ok.inj hsame
        refine ⟨_, List.mem_cons_self, hl, hr.spares.node?_eq hcontent ?_⟩
        rintro (hlogged | hwritten)
        · exact hlog hlogged
        · exact hlast hwritten
      · exact absurd ⟨f, hf, hl⟩ hlast

/-- Each file that is written is at a place in the end. -/
theorem locate_ok (h : Writes w a w') {f : Path × String} (hf : f ∈ a) :
    ∃ q, w'.files.locate f.1 = .ok q ∧ q ≠ [] := by
  induction h with
  | nil _ => cases hf
  | cons _ hw hr ih =>
    rcases List.mem_cons.mp hf with rfl | hf
    · obtain ⟨place, hplace, hs, hcontent⟩ := Tree.spares_write hw
      refine ⟨place, hr.spares.locate_ok (hs.locate_ok hplace), ?_⟩
      rintro rfl
      cases hcontent
    · exact ih hf

/-- Of several parties that write files one after the other, the last one that leads to a place
tells what the file there holds in the end, if it is no log file. -/
theorem holds_last {α : Type} {R : α → TextFiles → Prop} {as : List α} {groups : List TextFiles}
    (hr : List.Forall₂ R as groups) (h : Writes w groups.flatten w') {q : List String}
    (hlog : ¬LogPlace w'.journal w'.files q)
    (hq : ∃ g ∈ groups, ∃ f ∈ g, w'.files.locate f.1 = .ok q) :
    ∃ earlier a later g, as = earlier ++ a :: later ∧ R a g ∧
      (∃ f ∈ g, w'.files.locate f.1 = .ok q ∧
        w'.files.node? q = some (.file (Utf8.encode f.2.toList))) ∧
      ∀ b ∈ later, ∃ g, R b g ∧ ∀ f ∈ g, w'.files.locate f.1 ≠ .ok q := by
  induction hr generalizing w with
  | nil =>
    obtain ⟨g, hg, -⟩ := hq
    cases hg
  | @cons a g as groups ha hr ih =>
    by_cases hlater : ∃ g ∈ groups, ∃ f ∈ g, w'.files.locate f.1 = .ok q
    · obtain ⟨w₁, -, hrest⟩ := h.split
      obtain ⟨earlier, b, later, g', rfl, hb⟩ := ih hrest hlater
      exact ⟨a :: earlier, b, later, g', rfl, hb⟩
    · have hfirst : ∃ f ∈ g, w'.files.locate f.1 = .ok q := by
        obtain ⟨g', hg', hf⟩ := hq
        rcases List.mem_cons.mp hg' with rfl | hg'
        · exact hf
        · exact absurd ⟨g', hg', hf⟩ hlater
      obtain ⟨f, hf, hl, hcontent⟩ := h.holds hlog (by
        obtain ⟨f, hf, hl⟩ := hfirst
        exact ⟨f, List.mem_append_left _ hf, hl⟩)
      refine ⟨[], a, as, g, rfl, ha, ?_, fun b hb => ?_⟩
      · rcases List.mem_append.mp hf with hf | hf
        · exact ⟨f, hf, hl, hcontent⟩
        · obtain ⟨g', hg', hf⟩ := List.mem_flatten.mp hf
          exact absurd ⟨g', hg', f, hf, hl⟩ hlater
      · obtain ⟨g', hg', hbg⟩ := exists_mem_of_forall₂ hr hb
        exact ⟨g', hbg, fun f hf hl => hlater ⟨g', hg', f, hf, hl⟩⟩

end Writes

/-! ## Runs -/

namespace Run

variable {ε ε' α β : Type}

/-- What succeeds in two steps succeeds in each of them. -/
theorem exists_of_bind {x : Run ε α} {f : α → Run ε β} {b : β} (h : (x >>= f) w = (.ok b, w')) :
    ∃ a w₁, x w = (.ok a, w₁) ∧ f a w₁ = (.ok b, w') := by
  change (ExceptT.bindCont f (x w).1) (x w).2 = _ at h
  rcases hx : x w with ⟨result, next⟩
  rw [hx] at h
  cases result with
  | error e => cases h
  | ok a => exact ⟨a, next, rfl, h⟩

/-- A step that succeeds is followed by what comes next. -/
theorem bind_of_ok {x : Run ε α} {f : α → Run ε β} {a : α} (h : x w = (.ok a, w₁)) :
    (x >>= f) w = f a w₁ := by
  change ExceptT.bindCont f (x w).1 (x w).2 = _
  rw [h]
  rfl

/-- A message below the level of the journal leads nowhere. -/
theorem log_of_lt {part : String} {level : Level} {text : String}
    (h : level.rank < w.journal.level.rank) :
    (log part level text : Run ε Unit) w = (.ok (), w) := by
  rw [log, Workspace.note, Journal.deliveries, if_pos h]
  rfl

/-- A run that succeeds still does so when its errors are renamed. -/
theorem lift_of_ok {x : Run ε α} {encode : ε → ε'} {a : α} (h : x w = (.ok a, w₁)) :
    lift encode x w = (.ok a, w₁) := by
  rw [lift, h]

/-- A result that is a success gives its value and changes nothing. -/
theorem ofExcept_of_ok {x : Except ε α} {a : α} (h : x = .ok a) : ofExcept x w = (.ok a, w) := by
  rw [h]
  rfl

/-- A result that is a success gives its value whatever its errors become. -/
theorem orElse_of_ok {x : Except ε α} {encode : ε → ε'} {a : α} (h : x = .ok a) :
    orElse encode x w = (.ok a, w) := by
  rw [h]
  rfl

/-- Giving a value gives that value and changes nothing. -/
theorem eq_of_pure {a b : α} (h : (pure a : Run ε α) w = (.ok b, w')) : a = b ∧ w = w' := by
  cases h
  exact ⟨rfl, rfl⟩

/-- A result that gives a value is that success, and nothing has changed. -/
theorem eq_of_ofExcept {x : Except ε α} {a : α} (h : ofExcept x w = (.ok a, w')) :
    x = .ok a ∧ w = w' := by
  cases h
  exact ⟨rfl, rfl⟩

/-- A run with renamed errors that succeeds did so before. -/
theorem eq_of_lift {x : Run ε α} {encode : ε → ε'} {a : α} (h : lift encode x w = (.ok a, w')) :
    x w = (.ok a, w') := by
  rw [lift] at h
  split at h
  · next hx =>
    cases h
    exact hx
  · cases h

/-- What comes behind a message that is perhaps left out succeeds if both do. -/
theorem exists_of_logIf {c : Prop} [Decidable c] {part : String} {level : Level} {text : String}
    {x : Run ε α} {a : α}
    (h : (if c then (do log part level text; x) else x) w = (.ok a, w')) :
    ∃ w₁, x w₁ = (.ok a, w') := by
  split at h
  · obtain ⟨_, w₁, -, h⟩ := exists_of_bind h
    exact ⟨w₁, h⟩
  · exact ⟨w, h⟩

/-- Steps over a list that succeed give one result each. -/
theorem forall₂_of_mapM {f : α → Run ε β} {as : List α} {bs : List β}
    (h : as.mapM f w = (.ok bs, w')) :
    List.Forall₂ (fun a b => ∃ w₁ w₂, f a w₁ = (.ok b, w₂)) as bs := by
  induction as generalizing w bs with
  | nil =>
    obtain ⟨rfl, -⟩ := eq_of_pure h
    exact .nil
  | cons a as ih =>
    rw [List.mapM_cons] at h
    obtain ⟨b, w₁, hb, h⟩ := exists_of_bind h
    obtain ⟨bs', w₂, hbs, h⟩ := exists_of_bind h
    obtain ⟨rfl, rfl⟩ := eq_of_pure h
    exact .cons ⟨w, w₁, hb⟩ (ih hbs)

/-- Logging is quiet. -/
theorem quiet_log {part : String} {level : Level} {text : String} {u : Unit}
    (h : (log part level text : Run ε Unit) w = (.ok u, w')) : Quiet w w' := by
  cases h
  exact .note w _

/-- Recording a call is quiet. -/
theorem quiet_record {call : EmitterCall} {u : Unit}
    (h : (record call : Run ε Unit) w = (.ok u, w')) : Quiet w w' := by
  cases h
  exact .of_files rfl rfl

/-- Making directories is quiet. -/
theorem quiet_makeDirectories {p : Path} {u : Unit} (h : makeDirectories p w = (.ok u, w')) :
    Quiet w w' := by
  have hs := w.files.spares_makeDirectories p
  rw [makeDirectories] at h
  split at h
  · next files hm =>
    rw [hm] at hs
    cases h
    exact ⟨rfl, hs.mono fun _ => False.elim⟩
  · cases h

/-- Writing a text writes that text and nothing else. -/
theorem writes_writeText {p : Path} {text : String} {u : Unit}
    (h : writeText p text w = (.ok u, w')) : Writes w [(p, text)] w' := by
  rw [writeText] at h
  split at h
  · next files hw =>
    cases h
    exact .cons (.refl w) hw (.nil (.refl _))
  · cases h

end Run
end BindGen

import BindGen.Proofs.Emitter.Outputs
import BindGen.Proofs.File.Inside

/-!
# Where bindings are written to

Bindings are written to paths that are told by the module, the package and the directory. The names
of modules and packages come from metadata and from configurations, and are not checked: a module
may be named by an absolute path or by one that steps back, and a part of a package by an absolute
path. Such names lead out of the directory, and all others stay inside it.
-/

namespace BindGen

/-! ## The paths of bindings -/

/-- Names that go down: no part of a package and no module starts with a slash, and no piece of a
module steps back. The last piece of a module is free, as the ending of a file comes behind it. -/
structure Outline.Confined (o : Outline) (l : Language) : Prop where
  packages : l.style.packaged → ∀ part ∈ Text.cut (· == '.') o.packageName.toList,
    part.head? ≠ some '/'
  rooted : o.moduleName.toList.head? ≠ some '/'
  forward : ['.', '.'] ∉ (Text.cut (· == '/') o.moduleName.toList).dropLast

namespace Language

variable {l : Language} {o : Outline} {t : EmitTask} {files : TextFiles}

/-- The paths that bindings are written to below a directory. -/
def paths (l : Language) (o : Outline) (directory : Path) : List Path :=
  l.templateList.map fun template => (l.style.targetDirectory directory o.packageName).below
    (String.ofList (o.moduleName.toList ++ template.fileEnding))

/-- The paths that a task leads to: none if there is no outline. -/
def targets (l : Language) (t : EmitTask) : List Path :=
  match l.style.outlineFor t.interface t.settings with
  | .ok o => l.paths o t.directory
  | .error _ => []

/-- The files of a task have its paths. -/
theorem map_fst_outputs (h : l.style.outputs t = .ok files) :
    files.map Prod.fst = l.targets t := by
  obtain ⟨o, ho, h⟩ := exists_of_bind_eq_ok h
  change l.templates.mapM _ = _ at h
  rw [templates_eq] at h
  rw [targets, eq_ok_of_mapError ho]
  have hsteps := List.forall₂_map_left_iff.mp (forall₂_of_mapM h)
  exact (map_eq_of_forall₂ (hsteps.imp fun template f hf => (Style.fst_of_output hf).symm)).symm

private theorem mem_targets {p : Path} (h : l.style.LeadsTo t p) : p ∈ l.targets t := by
  obtain ⟨o, ho, e, he, name, hname, rfl⟩ := h
  change e ∈ l.templates at he
  rw [templates_eq] at he
  obtain ⟨template, htemplate, rfl⟩ := List.mem_map.mp he
  rw [Template.fill_filePattern] at hname
  obtain rfl := Except.ok.inj hname
  rw [targets, ho]
  exact List.mem_map_of_mem htemplate

/-! ## Names that stay inside -/

/-- The texts that lead to the file of a template, each read below the one in front. -/
def steps (l : Language) (o : Outline) (template : Template) : List String :=
  (if l.style.packaged then
    (Text.cut (· == '.') o.packageName.toList).map String.ofList
  else []) ++ [String.ofList (o.moduleName.toList ++ template.fileEnding)]

private theorem below_eq_foldl (l : Language) (o : Outline) (template : Template)
    (directory : Path) :
    (l.style.targetDirectory directory o.packageName).below
      (String.ofList (o.moduleName.toList ++ template.fileEnding)) =
      (l.steps o template).foldl Path.below directory := by
  rw [steps, List.foldl_append, Style.targetDirectory, List.foldl_cons, List.foldl_nil]
  split
  · rw [Style.packageDirectory, List.foldl_map]
  · rw [List.foldl_nil]

/-- The parts of a package have no double dots, as they are cut at dots. -/
theorem descends_part_iff {package part : List Char} (h : part ∈ Text.cut (· == '.') package) :
    (Path.ofText (String.ofList part)).Descends ↔ part.head? ≠ some '/' := by
  constructor
  · intro hd
    have hrelative := hd.relative
    rw [Path.isAbsolute_ofText] at hrelative
    exact beq_eq_false_iff_ne.mp hrelative
  · intro hslash
    refine ⟨?_, fun hback => ?_⟩
    · rw [Path.isAbsolute_ofText]
      exact beq_eq_false_iff_ne.mpr hslash
    · have hdot : '.' ∈ part :=
        Text.mem_of_mem_cut ((Path.back_mem_components part).mp hback) List.mem_cons_self
      exact absurd (Text.not_mem_of_mem_cut h '.' hdot) (by decide)

/-- The name of a file goes down if its module does in front of the last piece. -/
theorem descends_file_iff (module : List Char) (template : Template) :
    (Path.ofText (String.ofList (module ++ template.fileEnding))).Descends ↔
      module.head? ≠ some '/' ∧ ['.', '.'] ∉ (Text.cut (· == '/') module).dropLast := by
  have hhead : (module ++ template.fileEnding).head? = some '/' ↔ module.head? = some '/' := by
    cases module with
    | nil => cases template <;> decide
    | cons c rest => rfl
  have hslash : ∀ c ∈ template.fileEnding, (c == '/') = false := by
    have hall : template.fileEnding.all (fun c => !(c == '/')) = true := by cases template <;> rfl
    exact fun c hc => Bool.not_eq_true' _ ▸ List.all_eq_true.mp hall c hc
  have hlast (x : List Char) : x ++ template.fileEnding ≠ ['.', '.'] := by
    intro hx
    exact template.ofList_fileEnding_ne x (by rw [hx])
  have hback : ".." ∈ (Path.ofText (String.ofList (module ++ template.fileEnding))).parts ↔
      ['.', '.'] ∈ (Text.cut (· == '/') module).dropLast := by
    change ".." ∈ Path.components _ ↔ _
    rw [Path.back_mem_components, Text.cut_append module hslash]
    simp [(hlast _).symm]
  constructor
  · intro hd
    have hrelative := hd.relative
    rw [Path.isAbsolute_ofText] at hrelative
    exact ⟨fun h => beq_eq_false_iff_ne.mp hrelative (hhead.mpr h),
      fun h => hd.forward (hback.mpr h)⟩
  · rintro ⟨hrooted, hforward⟩
    refine ⟨?_, fun h => hforward (hback.mp h)⟩
    rw [Path.isAbsolute_ofText]
    exact beq_eq_false_iff_ne.mpr fun h => hrooted (hhead.mp h)

/-- Names go down if and only if each text that leads to a file does. -/
theorem confined_iff_descends (template : Template) :
    o.Confined l ↔ ∀ s ∈ l.steps o template, (Path.ofText s).Descends := by
  rw [steps, List.forall_mem_append, List.forall_mem_singleton, descends_file_iff]
  have hparts : (∀ s ∈ (if l.style.packaged then
        (Text.cut (· == '.') o.packageName.toList).map String.ofList else []),
      (Path.ofText s).Descends) ↔ (l.style.packaged → ∀ part ∈
        Text.cut (· == '.') o.packageName.toList, part.head? ≠ some '/') := by
    split
    · next hpackaged =>
      rw [List.forall_mem_map]
      simp only [hpackaged, true_imp_iff]
      exact forall₂_congr fun part hpart => descends_part_iff hpart
    · next hplain => simp [hplain]
  rw [hparts]
  exact ⟨fun h => ⟨h.packages, h.rooted, h.forward⟩, fun h => ⟨h.1, h.2.1, h.2.2⟩⟩

/-- Under names that go down all files stay inside the directory. -/
theorem inside_paths (h : o.Confined l) (directory : Path) :
    ∀ p ∈ l.paths o directory, p.Inside directory := by
  intro p hp
  obtain ⟨template, -, rfl⟩ := List.mem_map.mp hp
  rw [below_eq_foldl]
  exact Path.inside_foldl_below directory ((confined_iff_descends template).mp h)

/-- If all files stay inside a relative directory, the names go down. -/
theorem confined_of_inside {directory : Path} (hd : directory.isAbsolute = false)
    (h : ∀ p ∈ l.paths o directory, p.Inside directory) : o.Confined l := by
  obtain ⟨template, htemplate⟩ := List.exists_mem_of_ne_nil l.templateList (by cases l <;> decide)
  have hinside := h _ (List.mem_map_of_mem htemplate)
  rw [below_eq_foldl] at hinside
  exact (confined_iff_descends template).mpr (Path.descends_of_inside_foldl_below hd hinside)

end Language

/-! ## What a task writes -/

/-- From one workspace to another, files are new or changed only where paths lead or log files
are. -/
structure WritesOnly (ps : List Path) (w w' : Workspace) : Prop where
  journal : w'.journal = w.journal
  files : Tree.Grows (fun q => LogPlace w.journal w'.files q ∨ ∃ p ∈ ps, w'.files.locate p = .ok q)
    w.files w'.files

namespace WritesOnly

variable {ps : List Path} {w w₁ w' : Workspace}

private theorem of_files (hj : w'.journal = w.journal) (hf : w'.files = w.files) :
    WritesOnly ps w w' :=
  ⟨hj, hf ▸ .refl _ w'.files⟩

private theorem trans (h : WritesOnly ps w w₁) (h' : WritesOnly ps w₁ w') : WritesOnly ps w w' where
  journal := h'.journal.trans h.journal
  files := by
    have hlater := h'.files
    rw [h.journal] at hlater
    refine (h.files.mono ?_).trans hlater
    rintro q (⟨level, p, hs, hq⟩ | ⟨p, hp, hq⟩)
    · exact .inl ⟨level, p, hs, hlater.locate_ok hq⟩
    · exact .inr ⟨p, hp, hlater.locate_ok hq⟩

/-- No step at all writes only where it may. -/
instance : Std.Refl (WritesOnly ps) := ⟨fun _ => of_files rfl rfl⟩

/-- Steps that each write only where they may do so together. -/
instance : IsTrans Workspace (WritesOnly ps) := ⟨fun _ _ _ => trans⟩

private theorem accept {d : Delivery}
    (hd : ∀ p line, d = .file p line → ∃ level, Sink.file level p ∈ w.journal.sinks) :
    WritesOnly ps w (w.accept d) := by
  cases d with
  | console line => exact of_files rfl rfl
  | file p line =>
    rw [Workspace.accept]
    split
    · next files ha =>
      obtain ⟨q, hq, hg⟩ := Tree.grows_append ha
      obtain ⟨level, hsink⟩ := hd p line rfl
      refine ⟨rfl, hg.mono ?_⟩
      rintro x rfl
      exact .inl ⟨level, p, hsink, hg.locate_ok hq⟩
    · exact of_files rfl rfl

private theorem log {ε : Type} (part : String) (level : Level) (text : String) :
    Run.Leaves (WritesOnly ps) (Run.log part level text : Run ε Unit) := fun w =>
  Workspace.note_of_accept (fun _ _ h => h.journal) (fun _ _ hd => accept hd) w _

private theorem makeDirectories (p : Path) :
    Run.Leaves (WritesOnly ps) (Run.makeDirectories p) := by
  intro w
  have hg := w.files.grows_makeDirectories p
  rw [Run.makeDirectories]
  split
  · next files hm =>
    rw [hm] at hg
    exact ⟨rfl, hg.mono fun _ => False.elim⟩
  · next files e hm =>
    rw [hm] at hg
    exact ⟨rfl, hg.mono fun _ => False.elim⟩

private theorem writeText {p : Path} (hp : p ∈ ps) (text : String) :
    Run.Leaves (WritesOnly ps) (Run.writeText p text) := by
  intro w
  rw [Run.writeText]
  split
  · next files hw =>
    obtain ⟨q, hq, hg, -⟩ := Tree.grows_write hw
    refine ⟨rfl, hg.mono ?_⟩
    rintro x rfl
    exact .inr ⟨p, hp, hg.locate_ok hq⟩
  · exact of_files rfl rfl

end WritesOnly

namespace Language

variable {l : Language} {t : EmitTask} {w w' : Workspace} {result : Except EmitError (List Path)}

/-- However a task ends, it writes to its paths only. -/
theorem writesOnly_write (h : l.style.write t w = (result, w')) :
    WritesOnly (l.targets t) w w' := by
  have hleaves := Style.leaves_write (R := WritesOnly (l.targets t)) (s := l.style) (t := t)
    WritesOnly.log (fun _ _ => .of_files rfl rfl) WritesOnly.makeDirectories
    fun p text hp => .writeText (mem_targets hp) text
  exact hleaves.of_eq h

/-- The paths of a task are those of its outline. -/
theorem targets_eq {o : Outline} (ho : l.style.outlineFor t.interface t.settings = .ok o) :
    l.targets t = l.paths o t.directory := by
  rw [targets, ho]

/-- An emitter gives the paths of its task, and new or changed files are where these lead or log
files are. The paths are inside the directory if the names of module and package go down, and for a
relative directory only then. -/
theorem write_inside (h : l.style.write t w = (result, w')) :
    (∀ ps, result = .ok ps → ps = l.targets t) ∧
    (∀ q content, w'.files.node? q = some (.file content) →
      w.files.node? q = some (.file content) ∨ LogPlace w.journal w'.files q ∨
        ∃ p ∈ l.targets t, w'.files.locate p = .ok q) ∧
    ∀ o, l.style.outlineFor t.interface t.settings = .ok o →
      (o.Confined l → ∀ p ∈ l.targets t, p.Inside t.directory) ∧
      (t.directory.isAbsolute = false → (∀ p ∈ l.targets t, p.Inside t.directory) →
        o.Confined l) := by
  refine ⟨fun ps hps => ?_, fun q content hq => ?_, fun o ho => ?_⟩
  · rw [hps] at h
    obtain ⟨files, hfiles, rfl, -⟩ := Style.writes_write h
    exact map_fst_outputs hfiles
  · rw [or_iff_not_imp_right]
    exact (writesOnly_write h).files.fresh q content hq
  · rw [targets_eq ho]
    exact ⟨fun hc => inside_paths hc t.directory, fun hd hinside => confined_of_inside hd hinside⟩

/-- Under names that go down, new or changed files are below the place of the directory. -/
theorem prefix_of_write {o : Outline} (h : l.style.write t w = (result, w'))
    (ho : l.style.outlineFor t.interface t.settings = .ok o) (hc : o.Confined l)
    {x q : List String} (hd : w'.files.locate t.directory = .ok x) {content : Bytes}
    (hq : w'.files.node? q = some (.file content)) (hnew : w.files.node? q ≠ some (.file content))
    (hlog : ¬LogPlace w.journal w'.files q) : x <+: q := by
  by_contra hout
  refine hnew ((writesOnly_write h).files.fresh q content hq ?_)
  rintro (hlogged | ⟨p, hp, hlocated⟩)
  · exact hlog hlogged
  · rw [targets_eq ho] at hp
    exact hout (Tree.prefix_of_inside (inside_paths hc t.directory p hp) hd hlocated)

-- A task for a module whose name steps back.
private def escapeTask : EmitTask :=
  ⟨.bare "core" "core", ⟨none, [("module_name", "../escape")], [], #[], [], false⟩, ⟨"", ["out"]⟩,
    false⟩

-- A workspace with a directory and without files.
private def emptied : Workspace :=
  ⟨⟨⟨"/", ["work"]⟩, [(["out"], .directory)]⟩, fun _ => .missing, [], [], Journal.initial "", []⟩

private theorem exists_write_escape : ∃ o text,
    python.style.outlineFor escapeTask.interface escapeTask.settings = .ok o ∧
    python.style.write escapeTask emptied = (.ok [⟨"", ["out", "..", "escape.py"]⟩],
      { emptied with files.entries :=
          [(["out"], .directory), (["escape.py"], .file (Utf8.encode text))] }) := by
  have hmodule : Outline.moduleNameOf escapeTask.interface escapeTask.settings.shared =
      .ok "../escape" := rfl
  obtain ⟨checksum, ho⟩ := Outline.ofInterface_bare "" hmodule
  let o : Outline :=
    ⟨"core", checksum, "../escape", "", .null, [], false, [], [], [], [], [], []⟩
  have houtline : python.style.outlineFor escapeTask.interface escapeTask.settings = .ok o := by
    rw [Style.outlineFor, Settings.bindingsFor_plain _ _ rfl, ok_bind]
    exact ho
  have hrender : ∃ d, Template.Python.render python.spelling o = .ok d := by
    rw [Template.Python.render, Outline.externalsInOrder, sortByKey_nil]
    exact ⟨_, rfl⟩
  obtain ⟨d, hd⟩ := hrender
  have hfull : Template.python.render python.style.spelling python.style.cTypes o = .ok d :=
    congrArg (Except.mapError Template.CHeader.Gap.fault) hd
  have htext : python.style.textOf Template.python.name o = .ok d.text := Style.textOf_name hfull
  have hname : Pattern.fill "{module}.py" [("module", "../escape".toList)] =
      .ok "../escape.py".toList := rfl
  have hout : python.style.output o ⟨"", ["out"]⟩ Template.python.name "{module}.py" =
      .ok (⟨"", ["out", "..", "escape.py"]⟩, d.text) := by
    rw [Style.output, htext, ok_bind, hname]
    rfl
  refine ⟨o, d.text.toList, houtline, ?_⟩
  refine Style.write_of_single rfl rfl houtline hout rfl rfl ?_
  change Level.info.rank < (Journal.initial "").level.rank
  decide

/-- A module whose name steps back is written beside the directory. -/
theorem write_inside_escape : ∃ o w',
    python.style.outlineFor escapeTask.interface escapeTask.settings = .ok o ∧
    python.style.write escapeTask emptied = (.ok [⟨"", ["out", "..", "escape.py"]⟩], w') ∧
    ¬o.Confined python ∧ (∃ content, w'.files.node? ["escape.py"] = some (.file content)) ∧
    emptied.files.node? ["escape.py"] = none := by
  obtain ⟨o, text, ho, hw⟩ := exists_write_escape
  obtain ⟨htargets, -, hconfined⟩ := write_inside hw
  refine ⟨o, _, ho, hw, fun hc => ?_, ⟨Utf8.encode text, rfl⟩, rfl⟩
  obtain ⟨rest, hrest, hback⟩ := (hconfined o ho).1 hc ⟨"", ["out", "..", "escape.py"]⟩ (by
    rw [← htargets _ rfl]
    exact List.mem_singleton_self _)
  obtain rfl : ["..", "escape.py"] = rest := by simpa [escapeTask] using hrest
  exact hback (by decide)

end Language
end BindGen

import BindGen.Proofs.Emitter.Imports
import BindGen.Proofs.Generation.Trace
import BindGen.Proofs.Source.Narrowed

/-!
# What a run leaves

The files of the bindings of a source are there after a run, but two sources may lead to one place:
then the file there holds what the last of them has put into it. The bindings in another language
never get in the way. Nothing keeps sources apart whose modules have one name.
-/

namespace BindGen.Generation

variable {r : GenerationRequest} {w w' : Workspace}

/-- After a run without formatters the files of the bindings of each source are there, in each
language. Only bindings in the same language lead to the place of such a file, by a file of the same
name, and of the source itself no other file does. What the file holds, if it is no log file, is the
text of the last source whose bindings lead there: the text of its own source, unless a later one
does. -/
theorem run_holds_last {sources before after : List Source} {s : Source} {name : String}
    (hf : r.format = false) (h : run (Catalog.builtIn none) r w = (.ok sources, w'))
    (hs : sources = before ++ s :: after) (hname : name ∈ r.languages) :
    ∃ l files, languageFor? name = some l ∧ s.bindings r.directory l = .ok files ∧
      ∀ f ∈ files, ∃ q, w'.files.locate f.1 = .ok q ∧
        (∀ o l' g, o.Puts r.directory l' w'.files g q →
          l' = l ∧ g.1.name = f.1.name ∧ (o = s → g = f)) ∧
        (¬LogPlace w'.journal w'.files q →
          (∃ earlier o later g, s :: after = earlier ++ o :: later ∧
            o.Puts r.directory l w'.files g q ∧
            w'.files.read f.1 = .ok (Utf8.encode g.2.toList) ∧
            ∀ o' ∈ later, ∀ g', ¬o'.Puts r.directory l w'.files g' q) ∧
          ((∀ o ∈ after, ∀ g, ¬o.Puts r.directory l w'.files g q) →
            w'.files.read f.1 = .ok (Utf8.encode f.2.toList))) := by
  obtain ⟨ls, groups, w₁, hlanguages, hgroups, hwrites⟩ := writes_run hf h
  obtain ⟨l, hl, hlanguage⟩ := hlanguages name hname
  -- the writes for the source and those after it
  rw [hs] at hgroups
  have hrest := (List.forall₂_drop_append groups before (s :: after) hgroups.flip).flip
  rw [← List.take_append_drop before.length groups, List.flatten_append] at hwrites
  obtain ⟨w₂, -, hwrites⟩ := hwrites.split
  obtain ⟨all, restGroups, hall, -, hdrop⟩ := List.forall₂_cons_left_iff.mp hrest
  rw [hdrop] at hwrites hrest
  obtain ⟨files, hfiles, hsubset⟩ := Source.exists_subset_allBindings hall hl
  refine ⟨l, files, hlanguage, hfiles, fun f hfmem => ?_⟩
  have hfall := hsubset f hfmem
  obtain ⟨q, hq, hne⟩ := hwrites.locate_ok (List.mem_append_left restGroups.flatten hfall)
  have hown : s.Puts r.directory l w'.files f q := ⟨files, hfiles, hfmem, hq⟩
  have honly (o : Source) (l' : Language) (g : Path × String)
      (hg : o.Puts r.directory l' w'.files g q) :
      l' = l ∧ g.1.name = f.1.name ∧ (o = s → g = f) := Source.eq_of_puts hg hown hne
  refine ⟨q, hq, honly, fun hlog => ?_⟩
  -- the last source that leads to the place, with its file
  obtain ⟨earlier, o, later, g, hsplit, ho, ⟨e, he, hplace, hnode⟩, hlater⟩ :=
    hwrites.holds_last hrest hlog ⟨all, List.mem_cons_self, f, hfall, hq⟩
  obtain ⟨l', -, own, hown', he⟩ := Source.exists_of_mem_allBindings ho he
  have hputs : o.Puts r.directory l' w'.files e q := ⟨own, hown', he, hplace⟩
  obtain ⟨rfl, -, hsame⟩ := honly o l' e hputs
  have hread : w'.files.read f.1 = .ok (Utf8.encode e.2.toList) := by
    rw [Tree.read, hq]
    dsimp only
    rw [hnode]
  refine ⟨⟨earlier, o, later, e, hsplit, hputs, hread, ?_⟩, fun halone => ?_⟩
  · rintro o' ho' g' ⟨own', hbindings', hg', hplace'⟩
    obtain ⟨all', hall', hnone⟩ := hlater o' ho'
    obtain ⟨own'', hbindings'', hsubset'⟩ := Source.exists_subset_allBindings hall' hl
    rw [hbindings'] at hbindings''
    obtain rfl := Except.ok.inj hbindings''
    exact hnone g' (hsubset' g' hg') hplace'
  · cases earlier with
    | nil =>
      obtain ⟨rfl, -⟩ := List.cons.inj hsplit
      obtain rfl := hsame rfl
      exact hread
    | cons s' earlier =>
      obtain ⟨-, rfl⟩ := List.cons.inj hsplit
      exact absurd hputs (halone o (List.mem_append_right _ List.mem_cons_self) e)

/-! ## Two crates of one namespace -/

section OneNamespace

private def libraryPath : Path := ⟨"", ["libcore.so"]⟩

-- A workspace with a library of two crates, which both declare the namespace `core`.
private def start : Workspace := Source.linkedWorkspace "libcore.so" "core" []

private def target : Path := ⟨"", ["out"]⟩

private def corePath : Path := ⟨"", ["out", "core.py"]⟩

private def toPython : GenerationRequest :=
  ⟨⟨libraryPath, none, none, none⟩, ["python"], target, false⟩

-- The source of one of the crates before inheritance.
private def found (crate : String) : Source where
  package := Package.ofNames crate []
  crateName := crate
  interface := .bare crate "core"
  settings := ⟨some ⟨"/", ["work", crate]⟩,
    [("cdylib_name", "core"), ("crate_name", crate), ("namespace", "core"),
      ("module_name", "core")], [], #[], [], false⟩

private def loaded (crate : String) : Source :=
  { found crate with settings := { (found crate).settings with inherited := true } }

-- The workspace once the packages are listed.
private def listed : Workspace := { start with commands := [Package.listingCommand none] }

private theorem inheritAll_found :
    Source.inheritAll [found "core", found "util"] = .ok [loaded "core", loaded "util"] := by
  have hplans : [found "core", found "util"].zipIdx.mapM (fun e => do
      return (e.1, ← (Source.dependencySettings [found "core", found "util"] e.2 e.1).mapError
        SettingsError.fault)) = .ok [(found "core", []), (found "util", [])] := rfl
  have hinherit (crate : String) :
      (found crate).settings.inherit [] = .ok (loaded crate).settings := by
    rw [Settings.inherit, sortByKey_nil]
    rfl
  rw [Source.inheritAll, hplans, ok_bind, List.mapM_cons, List.mapM_cons]
  dsimp only
  rw [hinherit, hinherit]
  rfl

private theorem listed_start : Package.listed toPython.load.manifest start =
    (.ok [Package.ofNames "core" [], Package.ofNames "util" []], listed) :=
  Source.listed_linkedWorkspace

private theorem ofGroup_listed {crate : String} (h : crate = "core" ∨ crate = "util") :
    Source.ofGroup toPython.load [Package.ofNames "core" [], Package.ofNames "util" []]
      ⟨⟨crate, "core"⟩, []⟩ listed = (.ok (found crate), listed) := by
  rcases h with rfl | rfl <;> rfl

private theorem find_listed :
    Source.find toPython.load [Package.ofNames "core" [], Package.ofNames "util" []] listed =
      (.ok [found "core", found "util"], listed) := by
  rw [Source.find]
  have hread : Source.readItems libraryPath listed =
      (.ok [Wire.coreNamespace, Source.utilNamespace "core"], listed) :=
    Source.readItems_of_read (.inl rfl) rfl rfl
  refine (Run.bind_of_ok hread).trans ?_
  rw [Run.bind_of_ok (Run.orElse_of_ok (Source.groups_twoCrates "core")),
    Run.bind_of_ok (Run.log_of_lt (by decide)),
    List.mapM_cons, Run.bind_of_ok (ofGroup_listed (.inl rfl)), List.mapM_cons, List.mapM_nil,
    bind_assoc, Run.bind_of_ok (ofGroup_listed (.inr rfl))]
  rfl

private theorem load_start : Source.load toPython.load start =
    (.ok [loaded "core", loaded "util"], listed) := by
  rw [Source.load]
  dsimp only
  rw [Run.bind_of_ok (Run.log_of_lt (by decide)), Run.bind_of_ok (Run.lift_of_ok listed_start),
    Run.bind_of_ok (Run.log_of_lt (by decide)), if_neg (by decide), Run.bind_of_ok find_listed,
    Run.bind_of_ok (Run.orElse_of_ok inheritAll_found)]
  rfl

-- An outline of one of the crates for Python, with the text that it is rendered into.
private structure Rendered (crate : String) (o : Outline) (text : String) : Prop where
  outline : Language.python.style.outlineFor (loaded crate).interface (loaded crate).settings =
    .ok o
  crateName : o.crateName = .text crate
  moduleName : o.moduleName = "core"
  written : Language.python.style.textOf Template.python.name o = .ok text
  heading : ∃ rest, text = Document.text (Template.heading "#" o ++ rest)

private theorem exists_rendered {crate : String} (h : crate = "core" ∨ crate = "util") :
    ∃ o text, Rendered crate o text := by
  have hseen : (loaded crate).settings.bindingsFor "python" =
      .ok (loaded crate).settings.shared := by
    rw [Settings.bindingsFor_plain _ _ rfl]
    rfl
  have hm : Outline.moduleNameOf (.bare crate "core") (loaded crate).settings.shared =
      .ok "core" := by
    rcases h with rfl | rfl <;> rfl
  obtain ⟨checksum, ho⟩ := Outline.ofInterface_bare "" hm
  let o : Outline := ⟨crate, checksum, "core", "", "core", [], false, [], [], [], [], [], []⟩
  have houtline : Language.python.style.outlineFor (loaded crate).interface
      (loaded crate).settings = .ok o := by
    change ((loaded crate).settings.bindingsFor "python" >>= _) = _
    rw [hseen, ok_bind]
    refine Eq.trans ho ?_
    rcases h with rfl | rfl <;> rfl
  have hrender : ∃ d, Template.Python.render Language.python.spelling o = .ok d := by
    rw [Template.Python.render, Outline.externalsInOrder, sortByKey_nil]
    exact ⟨_, rfl⟩
  obtain ⟨d, hd⟩ := hrender
  obtain ⟨rest, hrest⟩ := (Template.Python.renders hd).heading
  have hfull : Template.python.render Language.python.style.spelling
      Language.python.style.cTypes o = .ok d :=
    congrArg (Except.mapError Template.CHeader.Gap.fault) hd
  have htext : Language.python.style.textOf Template.python.name o = .ok d.text :=
    Style.textOf_name hfull
  exact ⟨o, d.text, houtline, rfl, rfl, htext, rest, congrArg Document.text hrest⟩

private theorem Rendered.take_text {crate : String} {o : Outline} {text : String}
    (h : Rendered crate o text) (hc : crate = "core" ∨ crate = "util") :
    text.toList.take 40 =
      ("# Generated by ffigen 0.1.0 for crate `".toList ++ crate.toList).take 40 := by
  obtain ⟨rest, rfl⟩ := h.heading
  rw [Template.heading, h.crateName, List.cons_append, Document.text, List.map_cons,
    String.join_cons, String.toList_append, List.take_append_of_le_length]
  · rcases hc with rfl | rfl <;> rfl
  · rcases hc with rfl | rfl <;> decide

-- Texts for the two crates differ in their headings.
private theorem Rendered.text_ne {o o' : Outline} {text text' : String}
    (h : Rendered "core" o text) (h' : Rendered "util" o' text') : text ≠ text' := by
  rintro rfl
  have hcore := h.take_text (.inl rfl)
  rw [h'.take_text (.inr rfl)] at hcore
  revert hcore
  decide

private theorem Rendered.name {crate : String} {o : Outline} {text : String}
    (h : Rendered crate o text) :
    Pattern.fill "{module}.py" [("module", o.moduleName.toList)] = .ok "core.py".toList := by
  rw [h.moduleName]
  rfl

private theorem templates_python :
    Language.python.style.templates = [(Template.python.name, "{module}.py")] := rfl

private theorem Rendered.output {crate : String} {o : Outline} {text : String}
    (h : Rendered crate o text) :
    Language.python.style.output o target Template.python.name "{module}.py" =
      .ok (corePath, text) := by
  rw [Style.output, h.written, ok_bind, h.name]
  rfl

private theorem Rendered.bindings {crate : String} {o : Outline} {text : String}
    (h : Rendered crate o text) :
    (loaded crate).bindings target .python = .ok [(corePath, text)] := by
  rw [Source.bindings, Style.outputs]
  dsimp only
  rw [h.outline, templates_python]
  change ([(Template.python.name, "{module}.py")].mapM fun e =>
    Language.python.style.output o target e.1 e.2) = _
  rw [List.mapM_cons]
  dsimp only
  rw [h.output]
  rfl

-- A workspace in which the directory for bindings has no file yet, or one with such a content.
private structure Stage (content : Option Bytes) (w : Workspace) : Prop where
  files : w.files = ⟨⟨"/", ["work"]⟩,
    [(libraryPath.parts, .file (Source.twoCrates "core")), (target.parts, .directory)]
      ++ content.toList.map fun c => (corePath.parts, .file c)⟩
  journal : w.journal = Journal.initial ""

namespace Stage

variable {crate : String} {o : Outline} {text : String} {content : Option Bytes}

private theorem makeDirectories (h : Stage content w) :
    Run.makeDirectories target w = (.ok (), w) := by
  obtain ⟨files, programs, commands, calls, journal, console⟩ := w
  obtain ⟨rfl, rfl⟩ := h
  cases content <;> rfl

private theorem writeText (h : Stage content w) (text : String) :
    ∃ w', Run.writeText corePath text w = (.ok (), w') ∧
      Stage (some (Utf8.encode text.toList)) w' := by
  obtain ⟨files, programs, commands, calls, journal, console⟩ := w
  obtain ⟨rfl, rfl⟩ := h
  cases content <;> exact ⟨_, rfl, rfl, rfl⟩

private theorem log {ε : Type} (h : Stage content w) {part : String} {level : Level}
    {text : String} (hl : level.rank < 30) :
    (Run.log part level text : Run ε Unit) w = (.ok (), w) :=
  Run.log_of_lt (by rw [h.journal]; exact hl)

private theorem write (h : Stage content w) (ht : Rendered crate o text) :
    ∃ ps w', Language.python.style.write
        ⟨(loaded crate).interface, (loaded crate).settings, target, false⟩ w = (.ok ps, w') ∧
      Stage (some (Utf8.encode text.toList)) w' := by
  obtain ⟨w', hw, hw'⟩ := h.writeText text
  have hquiet : Level.info.rank < w'.journal.level.rank := by
    rw [hw'.journal]
    decide
  exact ⟨[corePath], w', Style.write_of_single templates_python rfl ht.outline ht.output
    h.makeDirectories hw hquiet, hw'⟩

private theorem perform (h : Stage content w) (ht : Rendered crate o text) :
    ∃ w', Generation.perform toPython ⟨loaded crate, "python", Language.python.style.emitter⟩ w =
        (.ok (), w') ∧ Stage (some (Utf8.encode text.toList)) w' := by
  obtain ⟨w₁, hrecord, hw₁⟩ : ∃ w₁, (Run.record ⟨"python", (loaded crate).crateName, target, false⟩ :
      Run GenerationError Unit) w = (.ok (), w₁) ∧ Stage content w₁ := ⟨_, rfl, h.files, h.journal⟩
  obtain ⟨ps, w', hwrite, hw'⟩ := hw₁.write ht
  have hfits : Job.fits ⟨loaded crate, "python", Language.python.style.emitter⟩
      toPython.load.library = true := rfl
  refine ⟨w', ?_, hw'⟩
  rw [Generation.perform, if_pos hfits, emit]
  refine (Run.bind_of_ok (h.log (by decide))).trans ?_
  refine (Run.bind_of_ok hrecord).trans ?_
  exact (Run.bind_of_ok (Run.lift_of_ok hwrite)).trans rfl

end Stage

private theorem resolve_python : resolve (Catalog.builtIn none) toPython.languages =
    .ok [("python", Language.python.style.emitter)] := by
  have hunknown : unknownLanguages (Catalog.builtIn none) toPython.languages = [] := by
    have hnone : toPython.languages.filter
        (fun l => (emitterFor? (Catalog.builtIn none) l).isNone) = [] := rfl
    rw [unknownLanguages, hnone]
    simp [Scalar.sortTexts]
  rw [resolve, hunknown]
  rfl

private theorem run_start : ∃ o core o' util w',
    run (Catalog.builtIn none) toPython start = (.ok [loaded "core", loaded "util"], w') ∧
      Rendered "core" o core ∧ Rendered "util" o' util ∧
      Stage (some (Utf8.encode util.toList)) w' := by
  obtain ⟨o, core, hcore⟩ := exists_rendered (.inl rfl)
  obtain ⟨o', util, hutil⟩ := exists_rendered (.inr rfl)
  obtain ⟨w₁, hmade, hw₁⟩ : ∃ w₁, Run.makeDirectories target listed = (.ok (), w₁) ∧ Stage none w₁ :=
    ⟨_, rfl, rfl, rfl⟩
  obtain ⟨w₂, hfirst, hw₂⟩ := hw₁.perform hcore
  obtain ⟨w₃, hsecond, hw₃⟩ := hw₂.perform hutil
  refine ⟨o, core, o', util, w₃, ?_, hcore, hutil, hw₃⟩
  have hjobs : ([⟨loaded "core", "python", Language.python.style.emitter⟩,
      ⟨loaded "util", "python", Language.python.style.emitter⟩] : List Job).forM
        (Generation.perform toPython) w₁ = (.ok (), w₃) := by
    rw [List.forM_eq_forM, List.forM_cons, Run.bind_of_ok hfirst, List.forM_cons,
      Run.bind_of_ok hsecond]
    rfl
  rw [run, Run.bind_of_ok (Run.ofExcept_of_ok resolve_python),
    Run.bind_of_ok (Run.lift_of_ok load_start)]
  refine (Run.bind_of_ok (Run.lift_of_ok hmade)).trans ?_
  exact (Run.bind_of_ok hjobs).trans rfl

/-- Of two crates of one namespace, the bindings of the second one are left. -/
theorem run_holds_last_util : ∃ w' util,
    toPython.format = false ∧
      run (Catalog.builtIn none) toPython start = (.ok [loaded "core", loaded "util"], w') ∧
      "python" ∈ toPython.languages ∧
      (loaded "util").bindings toPython.directory .python = .ok [(corePath, util)] ∧
      w'.files.read corePath = .ok (Utf8.encode util.toList) := by
  obtain ⟨o, core, o', util, w', hrun, -, hutil, hw'⟩ := run_start
  have hpython : "python" ∈ toPython.languages := List.mem_cons_self
  refine ⟨w', util, rfl, hrun, hpython, hutil.bindings, ?_⟩
  have hs : [loaded "core", loaded "util"] = [loaded "core"] ++ loaded "util" :: [] := rfl
  obtain ⟨l, files, hl, hfiles, hheld⟩ := run_holds_last rfl hrun hs hpython
  obtain rfl : Language.python = l := Option.some.inj hl
  obtain rfl := Except.ok.inj (hfiles.symm.trans hutil.bindings)
  obtain ⟨q, -, -, hq⟩ := hheld (corePath, util) List.mem_cons_self
  refine (hq ?_).2 fun o ho => absurd ho List.not_mem_nil
  rintro ⟨level, p, hsink, -⟩
  rw [hw'.journal] at hsink
  simp [Journal.initial] at hsink

/-- Of two crates of one namespace, the bindings of the first one are lost. -/
theorem run_loses_core : ∃ w' core,
    toPython.format = false ∧
      run (Catalog.builtIn none) toPython start = (.ok [loaded "core", loaded "util"], w') ∧
      "python" ∈ toPython.languages ∧
      (loaded "core").bindings toPython.directory .python = .ok [(corePath, core)] ∧
      w'.files.read corePath ≠ .ok (Utf8.encode core.toList) := by
  obtain ⟨o, core, o', util, w', hrun, hcore, hutil, hw'⟩ := run_start
  refine ⟨w', core, rfl, hrun, List.mem_cons_self, hcore.bindings, fun hread => ?_⟩
  have hlast : w'.files.read corePath = .ok (Utf8.encode util.toList) := by
    rw [hw'.files]
    rfl
  have hsame := Except.ok.inj (hread.symm.trans hlast)
  have hdecoded := congrArg Utf8.decode? hsame
  rw [Utf8.decode?_encode, Utf8.decode?_encode] at hdecoded
  exact hcore.text_ne hutil (String.toList_injective (Option.some.inj hdecoded))

end OneNamespace

end BindGen.Generation

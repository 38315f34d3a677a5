import BindGen.Proofs.Emitter.Imports
import BindGen.Proofs.Generation.Trace
import BindGen.Proofs.Settings.Identity
import BindGen.Proofs.Source.Inheritance

/-!
# How sources refer to each other

The bindings of a source import the module of each source that it directly depends on, under the
name that is recorded when settings are inherited. That name comes from the shared settings of the
dependency alone. What the dependency's own bindings declare comes from all settings for the
language, and in Kotlin from the package. The import is right exactly if both agree.
-/

namespace BindGen

namespace Settings

variable {d : Settings} {crate : String}

/-- A module is recorded under a text. -/
theorem exists_text_of_recordedName {v : Value} (h : recordedName (.text crate) d = .ok v) :
    ∃ module : String, v = .text module := by
  obtain ⟨name, -, h⟩ := exists_of_bind_eq_ok h
  cases name with
  | none =>
    obtain rfl := Except.ok.inj h
    exact ⟨crate, rfl⟩
  | some name =>
    obtain rfl := Except.ok.inj h
    by_cases hempty : name.isEmpty
    · exact ⟨crate, if_pos hempty⟩
    · exact ⟨name, if_neg hempty⟩

/-- A module whose name is set for all languages alike, and that is in no package of its own, is
recorded under the name that its bindings declare. -/
theorem moduleOf_eq_reference (hp : d.Plain) {l : Language} (i : Interface) {module : String}
    (hm : Table.find? d.shared "module_name" = some (.text module)) (hne : module ≠ "")
    (htable : Table.find? (d.languageTable l.name) "module_name" = none)
    (hpackage : l = .kotlin → ((Table.find? (overlay d.shared (d.languageTable l.name))
      "package_name").getD .null).isTruthy = false) :
    recordedName (.text crate) d = .ok (.text module) ∧
      l.moduleOf i (overlay d.shared (d.languageTable l.name)) = .ok (l.reference module) := by
  have hnonempty : module.isEmpty = false := by
    rw [← Bool.not_eq_true, String.isEmpty_iff]
    exact hne
  have htruthy : (Value.text module).isTruthy = true := by
    change (!module.isEmpty) = true
    rw [hnonempty]
    rfl
  have hview : Table.find? (overlay d.shared (d.languageTable l.name)) "module_name" =
      some (.text module) := by
    rw [find?_overlay (hp.keyed_languageTable _).distinct, htable, hm]
  have hfirst (v : Value) : (Value.text module).orElse v = .text module := if_pos htruthy
  constructor
  · have hname : d.moduleName = .ok (some module) := by
      rw [moduleName, nameUnder, get, hm, hp.links]
      rfl
    rw [recordedName, hname, ok_bind]
    exact congrArg Except.ok (if_neg (by rw [hnonempty]; exact Bool.false_ne_true))
  · cases l with
    | kotlin =>
      rw [Language.moduleOf, Style.packageName]
      dsimp only
      rw [hpackage rfl, if_neg Bool.false_ne_true, hview, Option.getD_some, hfirst, hfirst]
      rfl
    | _ =>
      change Outline.moduleNameOf i _ = _
      rw [Outline.moduleNameOf, hview, Option.getD_some, hfirst, hfirst]
      rfl

end Settings

namespace Source

variable {sources sources' : List Source} {s s' d d' : Source}

-- What a source has become when all sources have inherited.
private theorem inherit_of_mem_zip (h : Fresh sources) (hall : inheritAll sources = .ok sources')
    (hs : (s, s') ∈ sources.zip sources') : s ∈ sources ∧ ∃ settings,
      s.settings.inherit (inheritance sources s) = .ok settings ∧ s' = { s with settings } := by
  rw [inheritAll_eq h] at hall
  obtain ⟨settings, hsettings, rfl⟩ := exists_of_map_eq_ok (eq_ok_of_mem_zip hall hs)
  exact ⟨(List.of_mem_zip hs).1, settings, hsettings, rfl⟩

private theorem plain_inheritance (hplain : ∀ s ∈ sources, s.settings.Plain) (s : Source) :
    ∀ e ∈ inheritance sources s, e.2.Plain := by
  intro e he
  obtain ⟨o, ho, rfl⟩ := mem_inheritance.mp he
  exact hplain o (mem_dependencies.mp ho).1

-- The module of a source that has inherited is the one that its settings led to before.
private theorem moduleOf_of_inherit (h : Fresh sources)
    (hplain : ∀ s ∈ sources, s.settings.Plain) (hd : d ∈ sources) {settings : Settings}
    (hinherit : d.settings.inherit (inheritance sources d) = .ok settings) {l : Language}
    {i : Interface} {o : Outline} (ho : l.style.outlineFor i settings = .ok o) :
    l.moduleOf i (Settings.overlay d.settings.shared (d.settings.languageTable l.name)) =
      .ok (l.declaredModule o) := by
  have hkeyed := textKeyed_inheritance h d
  have hdistinct := distinct_inheritance h d
  have hdeps := plain_inheritance hplain d
  have hplain' := (Settings.inherited_of_inherit (hplain d hd) hkeyed hdeps hinherit).plain
  have hseen := Settings.bindingsFor_plain settings l.name hplain'.links
  rw [← Language.moduleOf_of_outlineFor hseen ho]
  refine Language.moduleOf_congr fun key hkey => ?_
  have hidentity : Settings.isIdentityKey (.text key) = true ∧
      Settings.modulesKey.same (.text key) = false := by
    revert key
    decide
  exact (Settings.find?_overlay_of_inherit (hplain d hd) hkeyed hdistinct hdeps hinherit _
    hidentity.1 hidentity.2).symm

-- The module of a dependency is imported under the name that is recorded for it.
private theorem importLine_mem (h : Fresh sources) (hplain : ∀ s ∈ sources, s.settings.Plain)
    (hs : s ∈ sources) {settings : Settings}
    (hinherit : s.settings.inherit (inheritance sources s) = .ok settings)
    (hdep : d ∈ dependencies sources s) {crate : String} (hcrate : d.crateName = .text crate)
    {l : Language} (hshared : Table.find? s.settings.shared "external_modules" = none)
    (htable : Table.find? (s.settings.languageTable l.name) "external_modules" = none)
    {t : EmitTask} (ht : t.settings = settings) {files : TextFiles} {o : Outline} {doc : Document}
    {p : Path} (hmain : l.MainFile t files o doc p) :
    ∃ module : String,
      Settings.recordedName (.text crate) d.settings = .ok (.text module) ∧
      l.importLine crate (l.reference module) ∈ doc := by
  have hkeyed := textKeyed_inheritance h s
  have hdistinct := distinct_inheritance h s
  have hdeps := plain_inheritance hplain s
  have hplain' := (Settings.inherited_of_inherit (hplain s hs) hkeyed hdeps hinherit).plain
  have hseen := Settings.bindingsFor_plain settings l.name hplain'.links
  obtain ⟨modules, hrecorded, hmodules⟩ := Settings.modules_of_inherit (hplain s hs) hkeyed
    hdistinct hdeps hinherit (.text l.name) hshared htable
  have hexternals : o.externalModules = modules := by
    obtain ⟨seen, hseen', ho⟩ := exists_of_bind_eq_ok hmain.outline
    rw [ht] at hseen'
    obtain rfl := Except.ok.inj (hseen.symm.trans hseen')
    rw [(Outline.of_ofInterface ho).2.2]
    change ((Table.find? _ Settings.modulesKey).bind Value.table?).getD [] = _
    cases hf : Table.find? (Settings.overlay settings.shared (settings.languageTable l.name))
        Settings.modulesKey with
    | none =>
      rw [hf] at hmodules
      exact Value.table.inj hmodules
    | some v =>
      rw [hf, Option.getD_some] at hmodules
      rw [hmodules]
      rfl
  -- the module of the dependency is among those that are recorded
  have hperm := sortOn_perm hkeyed.worded
  have hmem : (Scalar.text crate, d.settings) ∈ sortOn Prod.fst (inheritance sources s) := by
    rw [hperm.mem_iff, ← crateKey_of_named hcrate]
    exact mem_inheritance.mpr ⟨d, hdep, rfl⟩
  obtain ⟨m, hm, hstep⟩ := exists_mem_of_mapM hrecorded hmem
  obtain ⟨name, hname, rfl⟩ := exists_of_map_eq_ok hstep
  obtain ⟨module, rfl⟩ := Settings.exists_text_of_recordedName hname
  refine ⟨module, hname, ?_⟩
  -- sorting keeps it among the imports
  obtain ⟨externals, hsorted, himports⟩ := (Template.renders_mainTemplate hmain.document).imports
  have htexts : ∀ e ∈ o.externalModules, (Outline.foldCase e.1).IsWord := by
    intro e he
    rw [hexternals] at he
    obtain ⟨x, hx, hkey, -⟩ := (Settings.mem_recordedModules hrecorded).mp he
    obtain ⟨name, hname⟩ := hkeyed x (hperm.mem_iff.mp hx)
    exact ⟨.proper _, by rw [hkey, hname]; rfl⟩
  rw [Outline.externalsInOrder, sortByKey_of_words htexts] at hsorted
  obtain rfl := Except.ok.inj hsorted
  refine himports crate module ((mem_sortOn htexts).mpr ?_)
  rw [hexternals]
  exact hm

/-- The bindings of a source without modules of other crates of its own import the module of each
dependency under the name that is recorded for it. That is the module which the bindings of the
dependency declare, as their package or by the name of their file, exactly if the dependency's own
settings for the language led to it before anything was inherited. -/
theorem import_names_declared_iff (h : Fresh sources)
    (hplain : ∀ s ∈ sources, s.settings.Plain) (hall : inheritAll sources = .ok sources')
    (hs : (s, s') ∈ sources.zip sources') (hd : (d, d') ∈ sources.zip sources')
    (hdep : d ∈ dependencies sources s) {crate : String} (hcrate : d.crateName = .text crate)
    {l : Language} (hshared : Table.find? s.settings.shared "external_modules" = none)
    (htable : Table.find? (s.settings.languageTable l.name) "external_modules" = none)
    {directory : Path} {files files' : TextFiles} (hfiles : s'.bindings directory l = .ok files)
    (hfiles' : d'.bindings directory l = .ok files') :
    ∃ o doc p o' doc' p', ∃ module : String,
      l.MainFile ⟨s'.interface, s'.settings, directory, false⟩ files o doc p ∧
      l.MainFile ⟨d'.interface, d'.settings, directory, false⟩ files' o' doc' p' ∧
      Settings.recordedName (.text crate) d.settings = .ok (.text module) ∧
      l.importLine crate (l.reference module) ∈ doc ∧
      (l = .kotlin → Language.packageLine (l.declaredModule o') ∈ doc') ∧
      (l ≠ .kotlin → p' = directory.below
        (String.ofList ((l.declaredModule o').toList ++ l.mainTemplate.fileEnding))) ∧
      (l.reference module = l.declaredModule o' ↔
        l.moduleOf d.interface
          (Settings.overlay d.settings.shared (d.settings.languageTable l.name)) =
            .ok (l.reference module)) := by
  obtain ⟨hmem, settings, hinherit, rfl⟩ := inherit_of_mem_zip h hall hs
  obtain ⟨hmem', settings', hinherit', rfl⟩ := inherit_of_mem_zip h hall hd
  obtain ⟨o, doc, p, hmain⟩ := Language.exists_mainFile hfiles
  obtain ⟨o', doc', p', hmain'⟩ := Language.exists_mainFile hfiles'
  obtain ⟨module, hname, himport⟩ :=
    importLine_mem h hplain hmem hinherit hdep hcrate hshared htable rfl hmain
  refine ⟨o, doc, p, o', doc', p', module, hmain, hmain', hname, himport, ?_, ?_, ?_⟩
  · rintro rfl
    exact (Template.renders_mainTemplate hmain'.document).package rfl
  · intro hl
    rw [hmain'.path]
    cases l with
    | kotlin => exact absurd rfl hl
    | _ => rfl
  · rw [moduleOf_of_inherit h hplain hmem' hinherit' hmain'.outline]
    constructor
    · intro hsame
      rw [hsame]
    · intro hsame
      exact (Except.ok.inj hsame).symm

/-! ## A package of its own -/

section OwnPackage

private def nameKeys (crate : String) : Table Value :=
  [("module_name", crate), ("cdylib_name", "app")]

-- A crate whose Kotlin bindings are put into a package of its own.
private def packaged : Source where
  package := ⟨"core", "0.1.0", ⟨"", ["core", "Cargo.toml"]⟩, [], []⟩
  crateName := "core"
  interface := .bare "core" "core"
  settings := ⟨none, nameKeys "core",
    [("kotlin", .table [("package_name", "org.example.core")])], #[], [], false⟩

-- A crate that depends on the packaged one.
private def dependent : Source where
  package := ⟨"app", "0.1.0", ⟨"", ["app", "Cargo.toml"]⟩, [⟨"core", .null⟩], []⟩
  crateName := "app"
  interface := .bare "app" "app"
  settings := ⟨none, nameKeys "app", [], #[], [], false⟩

private def packaged' : Source :=
  { packaged with settings := { packaged.settings with inherited := true } }

private def dependent' : Source :=
  { dependent with settings := { dependent.settings with
      shared := [("module_name", "app"), ("cdylib_name", "app"),
        ("external_modules", .table [("core", "core")])]
      inheritedFrom := ["core"]
      inherited := true } }

private theorem fresh_packaged : Fresh [packaged, dependent] := by
  refine ⟨fun s hs => ?_, ?_, fun s hs => ?_⟩
  · obtain rfl | rfl : s = packaged ∨ s = dependent := by simpa using hs
    all_goals exact ⟨_, rfl⟩
  · simp [packaged, dependent]
  · obtain rfl | rfl : s = packaged ∨ s = dependent := by simpa using hs
    all_goals rfl

private theorem keyed_nameKeys (crate : String) : Value.Keyed (.table (nameKeys crate)) := by
  refine .table (by simp [nameKeys, Table.Distinct]) ?_
  simp only [nameKeys, List.forall_mem_cons, List.not_mem_nil, false_implies, implies_true,
    and_true]
  exact ⟨.other rfl, .other rfl⟩

private theorem plain_packaged : ∀ s ∈ [packaged, dependent], s.settings.Plain := by
  intro s hs
  obtain rfl | rfl : s = packaged ∨ s = dependent := by simpa using hs
  · refine ⟨rfl, keyed_nameKeys "core", ?_, by simp [packaged, Value.isTable]⟩
    exact Settings.keyed_single _ (Settings.keyed_single _ (.other rfl))
  · exact ⟨rfl, keyed_nameKeys "app", .empty, by simp [dependent]⟩

private theorem inheritAll_packaged :
    inheritAll [packaged, dependent] = .ok [packaged', dependent'] := by
  have hcore : inheriting [packaged, dependent] packaged = .ok packaged' := by
    have hnone : inheritance [packaged, dependent] packaged = [] := by decide +kernel
    rw [inheriting, hnone, Settings.inherit, sortByKey_nil]
    rfl
  have happ : inheriting [packaged, dependent] dependent = .ok dependent' := by
    have hone : inheritance [packaged, dependent] dependent =
        [(.text "core", packaged.settings)] := rfl
    have hsort : sortByKey Prod.fst [(("core" : Scalar), packaged.settings)] =
        .ok [("core", packaged.settings)] := by
      rw [sortByKey_of_words (by simp), sortOn_of_words (by simp), List.mergeSort_singleton]
    rw [inheriting, hone, Settings.inherit, hsort]
    rfl
  rw [inheritAll_eq fresh_packaged, List.mapM_cons, hcore, List.mapM_cons, happ]
  rfl

-- Without declarations a source has bindings in Kotlin.
private theorem exists_bindings_kotlin {s : Source} {crate package checksum : String}
    {modules : Table Value} (directory : Path)
    (hm : modules = [] ∨ modules = [(.text "core", .text "core")])
    (ho : Language.kotlin.style.outlineFor s.interface s.settings =
      .ok ⟨crate, checksum, crate, package, "app", modules, false, [], [], [], [], [], []⟩) :
    ∃ files, s.bindings directory .kotlin = .ok files := by
  have hsorted : sortByKey (fun e => Outline.foldCase e.1) modules = .ok modules := by
    rcases hm with rfl | rfl
    · exact sortByKey_nil _
    · rw [sortByKey_of_words (by simp [Outline.foldCase]),
        sortOn_of_words (by simp [Outline.foldCase]), List.mergeSort_singleton]
  have hrender : ∃ d, Template.Kotlin.render Language.kotlin.spelling
      ⟨crate, checksum, crate, package, "app", modules, false, [], [], [], [], [], []⟩ = .ok d := by
    rw [Template.Kotlin.render, Outline.externalsInOrder, hsorted]
    rcases hm with rfl | rfl <;> exact ⟨_, rfl⟩
  obtain ⟨d, hd⟩ := hrender
  have hfull := congrArg (Except.mapError Template.CHeader.Gap.fault) hd
  exact ⟨_, Language.outputs_of_render rfl ho hfull⟩

private theorem outline_packaged' : ∃ checksum,
    Language.kotlin.style.outlineFor packaged'.interface packaged'.settings =
      .ok ⟨"core", checksum, "core", "org.example.core", "app", [], false, [], [], [], [], [],
        []⟩ := by
  have hseen : packaged'.settings.bindingsFor "kotlin" =
      .ok (nameKeys "core" ++ [(.text "package_name", .text "org.example.core")]) := by
    rw [Settings.bindingsFor_plain _ _ rfl]
    rfl
  have hm : Outline.moduleNameOf (.bare "core" "core")
      (nameKeys "core" ++ [(.text "package_name", .text "org.example.core")]) = .ok "core" := rfl
  obtain ⟨checksum, ho⟩ := Outline.ofInterface_bare "org.example.core" hm
  refine ⟨checksum, ?_⟩
  change (packaged'.settings.bindingsFor "kotlin" >>= _) = _
  rw [hseen, ok_bind]
  exact Eq.trans ho rfl

private theorem outline_dependent' : ∃ checksum,
    Language.kotlin.style.outlineFor dependent'.interface dependent'.settings =
      .ok ⟨"app", checksum, "app", "ffigen.app", "app", [("core", "core")], false, [], [], [], [],
        [], []⟩ := by
  have hseen : dependent'.settings.bindingsFor "kotlin" = .ok dependent'.settings.shared := by
    rw [Settings.bindingsFor_plain _ _ rfl]
    rfl
  have hm : Outline.moduleNameOf (.bare "app" "app") dependent'.settings.shared = .ok "app" := rfl
  obtain ⟨checksum, ho⟩ := Outline.ofInterface_bare "ffigen.app" hm
  refine ⟨checksum, ?_⟩
  change (dependent'.settings.bindingsFor "kotlin" >>= _) = _
  rw [hseen, ok_bind]
  exact Eq.trans ho rfl

/-- The bindings of a crate import a module `ffigen.core`, but those of its dependency declare the
package `org.example.core`. -/
theorem import_names_declared_iff_package :
    ∃ (directory : Path) (files files' : TextFiles) (o o' : Outline) (doc doc' : Document)
      (p p' : Path), Fresh [packaged, dependent] ∧
      inheritAll [packaged, dependent] = .ok [packaged', dependent'] ∧
      dependent'.bindings directory .kotlin = .ok files ∧
      packaged'.bindings directory .kotlin = .ok files' ∧
      Language.kotlin.MainFile ⟨dependent'.interface, dependent'.settings, directory, false⟩ files
        o doc p ∧
      Language.kotlin.MainFile ⟨packaged'.interface, packaged'.settings, directory, false⟩ files'
        o' doc' p' ∧
      plainLine "import ffigen.core.*" ∈ doc ∧ plainLine "package org.example.core" ∈ doc' := by
  let directory : Path := ⟨"", ["out"]⟩
  obtain ⟨_, ho⟩ := outline_dependent'
  obtain ⟨checksum, ho'⟩ := outline_packaged'
  obtain ⟨files, hfiles⟩ := exists_bindings_kotlin directory (.inr rfl) ho
  obtain ⟨files', hfiles'⟩ := exists_bindings_kotlin directory (.inl rfl) ho'
  have hs : (dependent, dependent') ∈ [packaged, dependent].zip [packaged', dependent'] :=
    List.mem_cons_of_mem _ List.mem_cons_self
  have hd : (packaged, packaged') ∈ [packaged, dependent].zip [packaged', dependent'] :=
    List.mem_cons_self
  have hdep : packaged ∈ dependencies [packaged, dependent] dependent :=
    mem_dependencies.mpr ⟨List.mem_cons_self, rfl, rfl⟩
  obtain ⟨o, doc, p, o', doc', p', module, hmain, hmain', hname, himport, hpackage, -, -⟩ :=
    import_names_declared_iff fresh_packaged plain_packaged inheritAll_packaged hs hd hdep rfl rfl
      rfl hfiles hfiles'
  obtain rfl : "core" = module := Scalar.text.inj (Value.scalar.inj (Except.ok.inj hname))
  obtain rfl := Except.ok.inj (ho'.symm.trans hmain'.outline)
  exact ⟨directory, files, files', o, _, doc, doc', p, p', fresh_packaged, inheritAll_packaged,
    hfiles, hfiles', hmain, hmain', himport, hpackage rfl⟩

end OwnPackage

end Source
end BindGen

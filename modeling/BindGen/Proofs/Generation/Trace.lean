import BindGen.Generation.Basic
import BindGen.Proofs.Emitter.Outputs

/-!
# The files of a run

A run asks the emitter of each language for the bindings of each source, source by source. The files
that the bindings of a source are made of follow from the source alone.
-/

namespace BindGen

namespace Source

variable {s o : Source} {l l' : Language} {ls : List Language} {directory : Path} {tree : Tree}
  {f g : Path × String} {q : List String}

/-- The files that the bindings of a source in a language are made of. -/
def bindings (s : Source) (directory : Path) (l : Language) : Except EmitError TextFiles :=
  l.style.outputs ⟨s.interface, s.settings, directory, false⟩

/-- The files that the bindings of a source in languages are made of. -/
def allBindings (s : Source) (directory : Path) (ls : List Language) :
    Except EmitError TextFiles := do
  return (← ls.mapM (s.bindings directory)).flatten

/-- A file of the bindings of a source in a language leads to a place of a tree. -/
def Puts (s : Source) (directory : Path) (l : Language) (tree : Tree) (f : Path × String)
    (q : List String) : Prop :=
  ∃ files, s.bindings directory l = .ok files ∧ f ∈ files ∧ tree.locate f.1 = .ok q

/-- Each file of the bindings in languages is one of the bindings in one of them. -/
theorem exists_of_mem_allBindings {files : TextFiles} (h : s.allBindings directory ls = .ok files)
    (hf : f ∈ files) : ∃ l ∈ ls, ∃ own, s.bindings directory l = .ok own ∧ f ∈ own := by
  obtain ⟨each, heach, rfl⟩ := exists_of_map_eq_ok h
  obtain ⟨own, hown, hf⟩ := List.mem_flatten.mp hf
  obtain ⟨l, hl, hbindings⟩ := exists_of_mem_mapM heach hown
  exact ⟨l, hl, own, hbindings, hf⟩

/-- The bindings in languages have all files of the bindings in each of them. -/
theorem exists_subset_allBindings {files : TextFiles}
    (h : s.allBindings directory ls = .ok files) (hl : l ∈ ls) :
    ∃ own, s.bindings directory l = .ok own ∧ ∀ f ∈ own, f ∈ files := by
  obtain ⟨each, heach, rfl⟩ := exists_of_map_eq_ok h
  obtain ⟨own, hown, hbindings⟩ := exists_mem_of_mapM heach hl
  exact ⟨own, hbindings, fun f hf => List.mem_flatten.mpr ⟨own, hown, hf⟩⟩

/-- What leads to one place has one name and belongs to one language. The files of one source that
do so are the same. -/
theorem eq_of_puts (h : s.Puts directory l tree f q) (h' : o.Puts directory l' tree g q)
    (hne : q ≠ []) : l = l' ∧ f.1.name = g.1.name ∧ (s = o → f = g) := by
  obtain ⟨files, hfiles, hf, hq⟩ := h
  obtain ⟨files', hfiles', hg, hq'⟩ := h'
  obtain ⟨hl, hname, hsame⟩ := Language.eq_of_locate hfiles hf hfiles' hg hq hq' hne
  exact ⟨hl, hname, fun hso => hsame (by rw [hso])⟩

end Source

/-! ## The languages of a run -/

namespace Generation

variable {r : GenerationRequest} {w w' : Workspace} {u : Unit}

/-- The language that a name stands for, in any case. -/
def languageFor? (name : String) : Option Language :=
  Language.all.find? fun l => l.name == emitterKey name

private theorem lookup_map_emitter (ls : List Language) (key : String) :
    (ls.map fun l => (l.name, l.style.emitter)).lookup key =
      (ls.find? fun l => l.name == key).map fun l => l.style.emitter := by
  induction ls with
  | nil => rfl
  | cons l ls ih =>
    rw [List.map_cons, List.lookup_cons, List.find?_cons, ih, BEq.comm]
    split <;> rfl

private theorem emitterFor?_builtIn (name : String) :
    emitterFor? (Catalog.builtIn none) name = (languageFor? name).map fun l => l.style.emitter :=
  lookup_map_emitter Language.all (emitterKey name)

/-- The languages that names stand for, with the names. -/
def requested (names : List String) : List (String × Language) :=
  names.filterMap fun name => (languageFor? name).map fun l => (name, l)

/-- If all names have built-in emitters, these are the emitters of the languages that they stand
for. -/
theorem resolve_builtIn {names : List String} {emitters : List (String × Emitter)}
    (h : resolve (Catalog.builtIn none) names = .ok emitters) :
    emitters = (requested names).map (fun e => (e.1, e.2.style.emitter)) ∧
      ∀ name ∈ names, ∃ l, languageFor? name = some l ∧ (name, l) ∈ requested names := by
  rw [resolve] at h
  split at h
  · cases h
  split at h
  · next hunknown =>
    refine ⟨?_, fun name hname => ?_⟩
    · rw [← Except.ok.inj h, requested, List.map_filterMap]
      refine List.filterMap_congr fun name _ => ?_
      rw [emitterFor?_builtIn]
      cases languageFor? name <;> rfl
    · have hfound : (emitterFor? (Catalog.builtIn none) name).isNone = false := by
        by_contra hnone
        rw [Bool.not_eq_false] at hnone
        have hmem : name ∈ unknownLanguages (Catalog.builtIn none) names :=
          List.mem_mergeSort.mpr (List.mem_eraseDups.mpr (List.mem_filter.mpr ⟨hname, hnone⟩))
        rw [hunknown] at hmem
        cases hmem
      rw [emitterFor?_builtIn] at hfound
      cases hl : languageFor? name with
      | none =>
        rw [hl] at hfound
        cases hfound
      | some l =>
        exact ⟨l, rfl, List.mem_filterMap.mpr ⟨name, hname, by rw [hl]; rfl⟩⟩
  · cases h

/-! ## The files of a run -/

/-- A job writes the bindings of its source in its language. -/
theorem writes_perform {s : Source} {name : String} {l : Language} (hf : r.format = false)
    (h : perform r ⟨s, name, l.style.emitter⟩ w = (.ok u, w')) :
    ∃ files, s.bindings r.directory l = .ok files ∧ Writes w files w' := by
  rw [perform] at h
  split at h
  · obtain ⟨_, w₁, hlog, h⟩ := Run.exists_of_bind h
    obtain ⟨_, w₂, hrecord, h⟩ := Run.exists_of_bind h
    obtain ⟨ps, w₃, hwrite, h⟩ := Run.exists_of_bind h
    obtain ⟨-, rfl⟩ := Run.eq_of_pure h
    rw [hf] at hwrite
    obtain ⟨files, hfiles, -, hwrites⟩ := Style.writes_write (Run.eq_of_lift hwrite)
    have hbefore := (Run.quiet_log hlog).trans (Run.quiet_record hrecord)
    exact ⟨files, hfiles, .of_quiet hbefore hwrites⟩
  · cases h

/-- The jobs for a source write its bindings in all languages. -/
theorem writes_source {s : Source} {ls : List (String × Language)} (hf : r.format = false)
    (h : (ls.map fun e => (⟨s, e.1, e.2.style.emitter⟩ : Job)).forM (perform r) w = (.ok u, w')) :
    ∃ files, s.allBindings r.directory (ls.map Prod.snd) = .ok files ∧ Writes w files w' := by
  induction ls generalizing w with
  | nil =>
    obtain ⟨-, rfl⟩ := Run.eq_of_pure h
    exact ⟨[], rfl, .nil (.refl w)⟩
  | cons e ls ih =>
    obtain ⟨_, w₁, hfirst, hrest⟩ := Run.exists_of_bind h
    obtain ⟨own, hown, hwrites⟩ := writes_perform hf hfirst
    obtain ⟨files, hfiles, hwrites'⟩ := ih hrest
    obtain ⟨each, heach, rfl⟩ := exists_of_map_eq_ok hfiles
    refine ⟨own ++ each.flatten, ?_, hwrites.append hwrites'⟩
    rw [Source.allBindings, List.map_cons, List.mapM_cons, hown, heach]
    rfl

/-- The jobs of a run write the bindings of all sources, source by source. -/
theorem writes_jobs {sources : List Source} {ls : List (String × Language)} (hf : r.format = false)
    (h : (jobs sources (ls.map fun e => (e.1, e.2.style.emitter))).forM (perform r) w =
      (.ok u, w')) :
    ∃ groups, List.Forall₂ (fun s files => s.allBindings r.directory (ls.map Prod.snd) = .ok files)
      sources groups ∧ Writes w groups.flatten w' := by
  induction sources generalizing w with
  | nil =>
    obtain ⟨-, rfl⟩ := Run.eq_of_pure h
    exact ⟨[], .nil, .nil (.refl w)⟩
  | cons s sources ih =>
    rw [jobs, List.flatMap_cons, List.forM_eq_forM, List.forM_append, List.map_map] at h
    obtain ⟨_, w₁, hfirst, hrest⟩ := Run.exists_of_bind h
    obtain ⟨files, hfiles, hwrites⟩ := writes_source hf hfirst
    obtain ⟨groups, hgroups, hwrites'⟩ := ih hrest
    exact ⟨files :: groups, .cons hfiles hgroups, hwrites.append hwrites'⟩

/-- A run without formatters writes the bindings of its sources in all languages, source by
source. -/
theorem writes_run {sources : List Source} (hf : r.format = false)
    (h : run (Catalog.builtIn none) r w = (.ok sources, w')) :
    ∃ (ls : List Language) (groups : List TextFiles) (w₁ : Workspace),
      (∀ name ∈ r.languages, ∃ l ∈ ls, languageFor? name = some l) ∧
      List.Forall₂ (fun s files => s.allBindings r.directory ls = .ok files) sources groups ∧
      Writes w₁ groups.flatten w' := by
  obtain ⟨emitters, _, hr, h⟩ := Run.exists_of_bind h
  obtain ⟨hresolve, rfl⟩ := Run.eq_of_ofExcept hr
  obtain ⟨loaded, _, -, h⟩ := Run.exists_of_bind h
  obtain ⟨_, w₁, -, h⟩ := Run.exists_of_bind h
  obtain ⟨_, _, hjobs, h⟩ := Run.exists_of_bind h
  obtain ⟨rfl, rfl⟩ := Run.eq_of_pure h
  obtain ⟨rfl, hrequested⟩ := resolve_builtIn hresolve
  obtain ⟨groups, hgroups, hwrites⟩ := writes_jobs hf hjobs
  refine ⟨_, groups, w₁, fun name hname => ?_, hgroups, hwrites⟩
  obtain ⟨l, hl, hmem⟩ := hrequested name hname
  exact ⟨l, List.mem_map.mpr ⟨(name, l), hmem, rfl⟩, hl⟩

end Generation
end BindGen

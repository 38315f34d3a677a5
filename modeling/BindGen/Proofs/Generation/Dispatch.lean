import BindGen.Generation.Basic
import BindGen.Proofs.Source.Narrowed
import BindGen.Proofs.Source.Stages
import Mathlib.Data.List.Basic
import Mathlib.Data.List.ProdSigma

/-!
# The emitter calls of a run

A run calls emitters source by source and language by language, and stops at the first call that
fails. Before that it checks the languages and loads the sources, and leaves everything as it was if
this fails. Whether a dynamic library is needed is only asked when the turn of a call comes.
-/

namespace BindGen

/-! ## The record of calls -/

/-- No emitter is called from one workspace to another. -/
def SameCalls (w w' : Workspace) : Prop := w'.calls = w.calls

/-- No step at all makes no call. -/
instance : Std.Refl SameCalls := ⟨fun _ => rfl⟩

/-- Steps that each make no call make none together. -/
instance : IsTrans Workspace SameCalls := ⟨fun _ _ _ h h' => h'.trans h⟩

namespace Run

variable {ε : Type}

private theorem sameCalls_log (part : String) (level : Level) (text : String) :
    Leaves SameCalls (log part level text : Run ε Unit) :=
  fun w => (untouched_log (ε := ε) part level text w).calls

private theorem sameCalls_start (command : List String) :
    Leaves SameCalls (start command : Run ε ProgramReply) := fun _ => rfl

private theorem sameCalls_makeDirectories (p : Path) : Leaves SameCalls (makeDirectories p) := by
  intro w
  rw [makeDirectories]
  split <;> rfl

private theorem sameCalls_writeText (p : Path) (text : String) :
    Leaves SameCalls (writeText p text) := by
  intro w
  rw [writeText]
  split <;> rfl

end Run

/-- An emitter leaves the record of calls to the run that calls it. -/
def Emitter.KeepsCalls (e : Emitter) : Prop := ∀ task, Run.Leaves SameCalls (e.write task)

/-- The emitter of a style leaves the record of calls alone. -/
theorem Style.keepsCalls_emitter (s : Style) : s.emitter.KeepsCalls := fun _ =>
  s.leaves_write Run.sameCalls_log Run.sameCalls_start Run.sameCalls_makeDirectories
    fun p text _ => Run.sameCalls_writeText p text

private theorem Catalog.keepsCalls_builtIn (enabled : Option (List String)) :
    ∀ e ∈ Catalog.builtIn enabled, e.2.KeepsCalls := by
  intro e he
  obtain ⟨l, -, rfl⟩ := List.mem_map.mp he
  exact l.style.keepsCalls_emitter

namespace Generation

variable {catalog : Catalog} {r : GenerationRequest} {w w' : Workspace}

/-! ## One job -/

/-- The call that a job leads to. -/
def Job.call (r : GenerationRequest) (job : Job) : EmitterCall :=
  ⟨job.emitter.language, job.source.crateName, r.directory, r.format⟩

/-- Doing a job adds its call to the record, whether it succeeds or fails. -/
theorem calls_emit {job : Job} (hk : job.emitter.KeepsCalls) (w : Workspace) :
    (emit r job w).2.calls = w.calls ++ [job.call r] := by
  have hwrite : Run.Leaves SameCalls (do
      let _ ← Run.lift (failure job)
        (job.emitter.write ⟨job.source.interface, job.source.settings, r.directory, r.format⟩)
      return () : Run GenerationError Unit) := (hk _).lift.bind fun _ => .pure ()
  have hlog (text : String) : (Run.log Source.part .debug text : Run GenerationError Unit) w =
      (.ok (), w.note ⟨Journal.originOf Source.part, .debug, text⟩) := rfl
  have hrecord (v : Workspace) : (Run.record
      ⟨job.emitter.language, job.source.crateName, r.directory, r.format⟩ :
        Run GenerationError Unit) v = (.ok (), { v with calls := v.calls ++ [job.call r] }) := rfl
  rw [emit, Run.bind_of_ok (hlog _), Run.bind_of_ok (hrecord _)]
  exact (hwrite _).trans (congrArg (· ++ [job.call r]) (Untouched.note w _).calls)

private def NotRefused (e : GenerationError) : Prop :=
  ∀ language library, e ≠ .needsDynamicLibrary language library

private theorem raises_emit (job : Job) : Run.Raises NotRefused (emit r job) := by
  have hfailure (e : EmitError) : NotRefused (failure job e) := by
    intro language library
    cases e with
    | file cause =>
      rw [failure]
      split <;> exact GenerationError.noConfusion
    | _ => exact GenerationError.noConfusion
  refine (Run.Raises.log _ _ _).bind fun _ => Run.Raises.bind ?_ fun _ => ?_
  · exact fun _ _ _ h => by cases h
  · exact (Run.Raises.lift hfailure).bind fun _ => .pure ()

/-! ## Jobs one after the other -/

/-- Of several jobs those at the front are called, all of them if nothing fails. -/
theorem exists_of_perform {todo : List Job} (hk : ∀ job ∈ todo, job.emitter.KeepsCalls)
    {result : Except GenerationError Unit} (h : todo.forM (perform r) w = (result, w')) :
    ∃ done rest, todo = done ++ rest ∧ w'.calls = w.calls ++ done.map (Job.call r) ∧
      (result = .ok () → rest = []) := by
  induction todo generalizing w with
  | nil =>
    cases h
    exact ⟨[], [], rfl, (List.append_nil _).symm, fun _ => rfl⟩
  | cons job todo ih =>
    rw [List.forM_eq_forM, List.forM_cons, perform] at h
    split at h
    · have hcalls := calls_emit (r := r) (hk job List.mem_cons_self) w
      rcases hemit : emit r job w with ⟨e | u, w₁⟩
      · rw [Run.bind_of_error hemit] at h
        cases h
        rw [hemit] at hcalls
        exact ⟨[job], todo, rfl, hcalls, nofun⟩
      · rw [Run.bind_of_ok hemit] at h
        rw [hemit] at hcalls
        obtain ⟨done, rest, rfl, hdone, hall⟩ :=
          ih (fun j hj => hk j (List.mem_cons_of_mem job hj)) h
        refine ⟨job :: done, rest, rfl, ?_, hall⟩
        rw [hdone, hcalls, List.map_cons, List.append_assoc, List.singleton_append]
    · cases h
      exact ⟨[], job :: todo, rfl, (List.append_nil _).symm, nofun⟩

/-- The emitters of several jobs write the bindings one after the other, and none of them fails. -/
inductive Emits (r : GenerationRequest) : List Job → Workspace → Workspace → Prop where
  | nil (w : Workspace) : Emits r [] w w
  | cons {job : Job} {rest : List Job} {w w₁ w' : Workspace} :
      emit r job w = (.ok (), w₁) → Emits r rest w₁ w' → Emits r (job :: rest) w w'

/-- Of several jobs one is refused exactly if it is the first that cannot be done with the library,
and the emitters of those in front of it have written their bindings. -/
theorem perform_refuses_iff {todo : List Job} {language : String} {library : Path} :
    todo.forM (perform r) w = (.error (.needsDynamicLibrary language library), w') ↔
      ∃ before job after, todo = before ++ job :: after ∧ job.language = language ∧
        r.load.library = library ∧ job.fits library = false ∧
        (∀ b ∈ before, b.fits library = true) ∧ Emits r before w w' := by
  induction todo generalizing w with
  | nil =>
    constructor
    · intro h
      cases h
    · rintro ⟨before, job, after, h, -⟩
      exact absurd h (by simp)
  | cons job todo ih =>
    rw [List.forM_eq_forM, List.forM_cons, perform]
    split
    · next hfits =>
      rcases hemit : emit r job w with ⟨e | u, w₁⟩
      · rw [Run.bind_of_error hemit]
        constructor
        · intro h
          cases h
          exact absurd rfl (raises_emit job w _ _ hemit language library)
        · rintro ⟨before, j, after, h, -, rfl, hunfit, -, hdone⟩
          cases hdone with
          | nil =>
            obtain ⟨rfl, -⟩ := List.cons.inj h
            rw [hfits] at hunfit
            cases hunfit
          | cons hfirst _ =>
            obtain ⟨rfl, -⟩ := List.cons.inj h
            rw [hemit] at hfirst
            cases hfirst
      · rw [Run.bind_of_ok hemit]
        refine ih.trans ⟨?_, ?_⟩
        · rintro ⟨before, j, after, rfl, hlanguage, rfl, hunfit, hbefore, hdone⟩
          exact ⟨job :: before, j, after, rfl, hlanguage, rfl, hunfit,
            List.forall_mem_cons.mpr ⟨hfits, hbefore⟩, .cons hemit hdone⟩
        · rintro ⟨before, j, after, h, hlanguage, rfl, hunfit, hbefore, hdone⟩
          cases hdone with
          | nil =>
            obtain ⟨rfl, -⟩ := List.cons.inj h
            rw [hfits] at hunfit
            cases hunfit
          | cons hfirst hrest =>
            obtain ⟨rfl, rfl⟩ := List.cons.inj h
            rw [hemit] at hfirst
            cases hfirst
            exact ⟨_, j, after, rfl, hlanguage, rfl, hunfit,
              (List.forall_mem_cons.mp hbefore).2, hrest⟩
    · next hunfit =>
      rw [Bool.not_eq_true] at hunfit
      constructor
      · intro h
        cases h
        exact ⟨[], job, todo, rfl, rfl, rfl, hunfit, List.forall_mem_nil _, .nil _⟩
      · rintro ⟨before, j, after, h, rfl, rfl, -, hbefore, hdone⟩
        cases hdone with
        | nil =>
          obtain ⟨rfl, -⟩ := List.cons.inj h
          rfl
        | cons _ _ =>
          obtain ⟨rfl, -⟩ := List.cons.inj h
          rw [(List.forall_mem_cons.mp hbefore).1] at hunfit
          cases hunfit

private theorem Emits.calls_eq {todo : List Job} (h : Emits r todo w w')
    (hk : ∀ job ∈ todo, job.emitter.KeepsCalls) :
    w'.calls = w.calls ++ todo.map (Job.call r) := by
  induction h with
  | nil w => exact (List.append_nil _).symm
  | @cons job rest w w₁ w' hfirst _ ih =>
    have hcalls := calls_emit (r := r) (hk job List.mem_cons_self) w
    rw [hfirst] at hcalls
    rw [ih fun j hj => hk j (List.mem_cons_of_mem job hj), hcalls, List.map_cons, List.append_assoc,
      List.singleton_append]

/-! ## The languages and the product -/

/-- The jobs of a run are its sources by its languages, in order, each with the emitter of its
language. -/
structure IsProduct (catalog : Catalog) (sources : List Source) (languages : List String)
    (product : List Job) : Prop where
  pairs : product.map (fun job => (job.source, job.language)) = sources ×ˢ languages
  emitters : ∀ job ∈ product, emitterFor? catalog job.language = some job.emitter

private theorem resolve_of_unknown {languages : List String}
    (h : ∃ l ∈ languages, emitterFor? catalog l = none) :
    resolve catalog languages =
      .error (.unknownLanguages (unknownLanguages catalog languages) catalog.names) := by
  obtain ⟨l, hl, hnone⟩ := h
  have hmem : l ∈ unknownLanguages catalog languages :=
    List.mem_mergeSort.mpr (List.mem_eraseDups.mpr (List.mem_filter.mpr ⟨hl, by rw [hnone]; rfl⟩))
  rw [resolve, if_neg (by simp [List.ne_nil_of_mem hl])]
  split
  · next hempty =>
    rw [hempty] at hmem
    cases hmem
  · rfl

private theorem resolve_of_known {languages : List String} (hne : languages ≠ [])
    (h : ∀ l ∈ languages, ∃ e, emitterFor? catalog l = some e) :
    ∃ emitters, resolve catalog languages = .ok emitters ∧ emitters.map Prod.fst = languages ∧
      ∀ e ∈ emitters, emitterFor? catalog e.1 = some e.2 := by
  have hunknown : unknownLanguages catalog languages = [] := by
    have hnone : (languages.filter fun l => (emitterFor? catalog l).isNone) = [] := by
      refine List.filter_eq_nil_iff.mpr fun l hl => ?_
      obtain ⟨e, he⟩ := h l hl
      simp [he]
    rw [unknownLanguages, hnone]
    simp [Scalar.sortTexts]
  rw [resolve, if_neg (by simp [hne]), hunknown]
  refine ⟨_, rfl, ?_, fun e he => ?_⟩
  · clear hunknown hne
    induction languages with
    | nil => rfl
    | cons l rest ih =>
      obtain ⟨e, he⟩ := h l List.mem_cons_self
      rw [List.filterMap_cons, he]
      exact congrArg (l :: ·) (ih fun k hk => h k (List.mem_cons_of_mem l hk))
  · obtain ⟨l, -, hl⟩ := List.mem_filterMap.mp he
    obtain ⟨found, hfound, rfl⟩ := Option.map_eq_some_iff.mp hl
    exact hfound

private theorem isProduct_jobs {sources : List Source} {emitters : List (String × Emitter)}
    {languages : List String} (hl : emitters.map Prod.fst = languages)
    (he : ∀ e ∈ emitters, emitterFor? catalog e.1 = some e.2) :
    IsProduct catalog sources languages (jobs sources emitters) where
  pairs := by
    rw [jobs, List.map_flatMap, ← hl]
    refine List.flatMap_congr fun s _ => ?_
    rw [List.map_map, List.map_map]
    rfl
  emitters job hjob := by
    obtain ⟨s, -, hjob⟩ := List.mem_flatMap.mp hjob
    obtain ⟨e, hmem, rfl⟩ := List.mem_map.mp hjob
    exact he e hmem

/-! ## The run -/

/-- What is left of a run once its sources are loaded. -/
def dispatch (r : GenerationRequest) (sources : List Source) (todo : List Job) :
    Run GenerationError (List Source) := do
  Run.lift .directory (Run.makeDirectories r.directory)
  todo.forM (perform r)
  return sources

private theorem run_of_load {emitters : List (String × Emitter)} {sources : List Source}
    {w₁ : Workspace} (hr : resolve catalog r.languages = .ok emitters)
    (hl : Source.load r.load w = (.ok sources, w₁)) :
    run catalog r w = dispatch r sources (jobs sources emitters) w₁ := by
  rw [run, Run.bind_of_ok (Run.ofExcept_of_ok hr), Run.bind_of_ok (Run.lift_of_ok hl)]
  rfl

/-- The jobs at the front are called, all of them if the rest of the run succeeds. -/
theorem exists_of_dispatch {sources : List Source} {todo : List Job}
    (hk : ∀ job ∈ todo, job.emitter.KeepsCalls) {result : Except GenerationError (List Source)}
    (h : dispatch r sources todo w = (result, w')) :
    ∃ done rest, todo = done ++ rest ∧ w'.calls = w.calls ++ done.map (Job.call r) ∧
      ∀ sources', result = .ok sources' → sources' = sources ∧ rest = [] := by
  have hleaves : Run.Leaves SameCalls
      (Run.lift GenerationError.directory (Run.makeDirectories r.directory)) :=
    (Run.sameCalls_makeDirectories r.directory).lift
  have hmade := hleaves w
  rw [dispatch] at h
  rcases hm : Run.lift GenerationError.directory (Run.makeDirectories r.directory) w with
    ⟨e | u, w₂⟩
  · rw [hm] at hmade
    rw [Run.bind_of_error hm] at h
    cases h
    exact ⟨[], todo, rfl, hmade.trans (List.append_nil _).symm, nofun⟩
  · rw [hm] at hmade
    rw [Run.bind_of_ok hm] at h
    rcases hall : todo.forM (perform r) w₂ with ⟨result', w₃⟩
    obtain ⟨done, rest, htodo, hcalls, hrest⟩ := exists_of_perform hk hall
    have hcalls' : w₃.calls = w.calls ++ done.map (Job.call r) := by rw [hcalls, hmade]
    cases result' with
    | error e =>
      rw [Run.bind_of_error hall] at h
      cases h
      exact ⟨done, rest, htodo, hcalls', nofun⟩
    | ok u =>
      rw [Run.bind_of_ok hall] at h
      cases h
      refine ⟨done, rest, htodo, hcalls', fun sources' hs => ⟨?_, hrest rfl⟩⟩
      exact (Except.ok.inj hs).symm

/-- The rest of a run is refused exactly if one of its jobs is, once the directory is made. -/
theorem dispatch_refuses_iff {sources : List Source} {todo : List Job} {language : String}
    {library : Path} :
    dispatch r sources todo w = (.error (.needsDynamicLibrary language library), w') ↔
      ∃ w₂, Run.makeDirectories r.directory w = (.ok (), w₂) ∧
        todo.forM (perform r) w₂ = (.error (.needsDynamicLibrary language library), w') := by
  rw [dispatch]
  constructor
  · intro h
    obtain h | ⟨u, w₂, hm, h⟩ := Run.error_of_bind h
    · rw [Run.lift] at h
      split at h <;> cases h
    · obtain h | ⟨u, w₃, -, h⟩ := Run.error_of_bind h
      · exact ⟨w₂, Run.eq_of_lift hm, h⟩
      · cases h
  · rintro ⟨w₂, hm, h⟩
    rw [Run.bind_of_ok (Run.lift_of_ok hm), Run.bind_of_error h]

/-- Without a dynamic library exactly those jobs can be done whose emitters need none. -/
theorem Job.fits_eq {job : Job} {library : Path} :
    job.fits library = false ↔
      Library.dynamicName? library = none ∧ job.emitter.requiresCdylib = true := by
  rw [Job.fits, Bool.or_eq_false_iff, Option.isSome_eq_false_iff, Option.isNone_iff_eq_none,
    Bool.not_eq_false']

private theorem IsProduct.keepsCalls {sources : List Source} {languages : List String}
    {product : List Job}
    (h : IsProduct catalog sources languages product) (hk : ∀ e ∈ catalog, e.2.KeepsCalls) :
    ∀ job ∈ product, job.emitter.KeepsCalls := by
  intro job hjob
  obtain ⟨before, after, hsplit, -⟩ := List.lookup_eq_some_iff.mp (h.emitters job hjob)
  refine hk (emitterKey job.language, job.emitter) ?_
  rw [hsplit]
  exact List.mem_append_right before List.mem_cons_self

/-- A run that fails before any emitter is called leaves everything but its messages as it was, and
does not even list packages if the languages are to blame. Otherwise emitters are called in the
order of the product of the sources and the languages, all of them if the run succeeds. That a
dynamic library is needed is reported at the first pair whose emitter needs one, if there is none,
after the emitters of all earlier pairs have written their bindings. -/
theorem run_dispatches (hk : ∀ e ∈ catalog, e.2.KeepsCalls) (r : GenerationRequest)
    (w : Workspace) :
    (r.languages = [] → run catalog r w = (.error .noLanguage, w)) ∧
    ((∃ l ∈ r.languages, emitterFor? catalog l = none) → run catalog r w =
      (.error (.unknownLanguages (unknownLanguages catalog r.languages) catalog.names), w)) ∧
    (r.languages ≠ [] → (∀ l ∈ r.languages, ∃ e, emitterFor? catalog l = some e) →
      (∀ e w', Source.load r.load w = (.error e, w') →
        run catalog r w = (.error (.load e), w') ∧ w'.calls = w.calls ∧
          ∀ q, ¬LogPlace w.journal w.files q → w'.files.node? q = w.files.node? q) ∧
      ∀ sources w₁, Source.load r.load w = (.ok sources, w₁) →
        ∃ product, IsProduct catalog sources r.languages product ∧
          (∀ result w', run catalog r w = (result, w') →
            ∃ done rest, product = done ++ rest ∧
              w'.calls = w.calls ++ done.map (Job.call r) ∧
              ∀ sources', result = .ok sources' → sources' = sources ∧ rest = []) ∧
          ∀ language library w',
            run catalog r w = (.error (.needsDynamicLibrary language library), w') ↔
              ∃ before job after w₂, product = before ++ job :: after ∧
                job.language = language ∧ r.load.library = library ∧
                Library.dynamicName? library = none ∧ job.emitter.requiresCdylib = true ∧
                (∀ b ∈ before, b.emitter.requiresCdylib = false) ∧
                Run.makeDirectories r.directory w₁ = (.ok (), w₂) ∧ Emits r before w₂ w' ∧
                w'.calls = w.calls ++ before.map (Job.call r)) := by
  refine ⟨fun hempty => ?_, fun hunknown => ?_, fun hne hknown => ⟨fun e w' hload => ?_,
    fun sources w₁ hload => ?_⟩⟩
  · have hresolve : resolve catalog r.languages = .error .noLanguage := by
      rw [resolve, hempty]
      rfl
    rw [run, hresolve]
    rfl
  · rw [run, resolve_of_unknown hunknown]
    rfl
  · obtain ⟨emitters, hresolve, -⟩ := resolve_of_known hne hknown
    have huntouched := (Source.untouched_load r.load).of_eq hload
    refine ⟨?_, huntouched.calls, huntouched.files.others⟩
    rw [run, Run.bind_of_ok (Run.ofExcept_of_ok hresolve),
      Run.bind_of_error (Run.lift_of_error hload)]
  · obtain ⟨emitters, hresolve, hlanguages, hemitters⟩ := resolve_of_known hne hknown
    have hproduct : IsProduct catalog sources r.languages (jobs sources emitters) :=
      isProduct_jobs hlanguages hemitters
    have hkeeps := hproduct.keepsCalls hk
    have hcalls : w₁.calls = w.calls := ((Source.untouched_load r.load).of_eq hload).calls
    rw [run_of_load hresolve hload]
    refine ⟨_, hproduct, fun result w' hrun => ?_, fun language library w' => ?_⟩
    · rw [← hcalls]
      exact exists_of_dispatch hkeeps hrun
    · rw [dispatch_refuses_iff]
      constructor
      · rintro ⟨w₂, hmade, hperform⟩
        obtain ⟨before, job, after, hsplit, hlanguage, hlibrary, hunfit, hbefore, hdone⟩ :=
          perform_refuses_iff.mp hperform
        obtain ⟨hnone, hneeds⟩ := Job.fits_eq.mp hunfit
        refine ⟨before, job, after, w₂, hsplit, hlanguage, hlibrary, hnone, hneeds, fun b hb => ?_,
          hmade, hdone, ?_⟩
        · have hfits := hbefore b hb
          rwa [Job.fits, hnone, Option.isSome_none, Bool.false_or, Bool.not_eq_true'] at hfits
        · have hmadeCalls : w₂.calls = w₁.calls :=
            (Run.sameCalls_makeDirectories r.directory).of_eq hmade
          rw [hdone.calls_eq fun b hb => hkeeps b (hsplit ▸ List.mem_append_left _ hb), hmadeCalls,
            hcalls]
      · rintro ⟨before, job, after, w₂, hsplit, hlanguage, hlibrary, hnone, hneeds, hbefore, hmade,
          hdone, -⟩
        refine ⟨w₂, hmade, perform_refuses_iff.mpr ⟨before, job, after, hsplit, hlanguage, hlibrary,
          Job.fits_eq.mpr ⟨hnone, hneeds⟩, fun b hb => ?_, hdone⟩⟩
        rw [Job.fits, hbefore b hb, Bool.not_false, Bool.or_true]

section Static

open Source.StaticLibrary (core util)

private def out : Path := ⟨"", ["out"]⟩

-- A request for bindings of a static library in two languages, of which the second one needs a
-- dynamic library.
private def toSwiftAndKotlin : GenerationRequest :=
  ⟨Source.StaticLibrary.request, ["swift", "kotlin"], out, false⟩

private theorem output_swift {o : Outline} {d : Document} (hm : o.moduleName = "core")
    (hc : o.compact = false) {t : Template} {p : Path}
    (hp : out.below (String.ofList ("core".toList ++ t.fileEnding)) = p)
    (hd : t.render Language.swift.style.spelling Language.swift.style.cTypes o = .ok d) :
    Language.swift.style.output o out t.name t.filePattern = .ok (p, d.text) := by
  rw [Style.output_name out hd, hm, hp, hc]
  rfl

private theorem exists_outputs_core : ∃ o text header,
    Language.swift.style.outlineFor core.interface core.settings = .ok o ∧
      Language.swift.style.targetDirectory out o.packageName = out ∧
      Language.swift.style.outputs ⟨core.interface, core.settings, out, false⟩ =
        .ok [(⟨"", ["out", "core.swift"]⟩, text), (⟨"", ["out", "coreFFI.h"]⟩, header)] := by
  have hseen : core.settings.bindingsFor "swift" = .ok core.settings.shared := by
    rw [Settings.bindingsFor_plain _ _ rfl]
    rfl
  have hm : Outline.moduleNameOf (.bare "core" "core") core.settings.shared = .ok "core" := rfl
  obtain ⟨checksum, ho⟩ := Outline.ofInterface_bare "" hm
  let o : Outline := ⟨"core", checksum, "core", "", .null, [], false, [], [], [], [], [], []⟩
  have houtline : Language.swift.style.outlineFor core.interface core.settings = .ok o := by
    change (core.settings.bindingsFor "swift" >>= _) = _
    rw [hseen, ok_bind]
    exact Eq.trans ho rfl
  have hswift : ∃ d, Template.swift.render Language.swift.style.spelling
      Language.swift.style.cTypes o = .ok d := by
    rw [Template.render, Template.Swift.render, Outline.externalsInOrder, sortByKey_nil]
    exact ⟨_, rfl⟩
  have hheader : ∃ d, Template.cHeader.render Language.swift.style.spelling
      Language.swift.style.cTypes o = .ok d := ⟨_, rfl⟩
  obtain ⟨d, hd⟩ := hswift
  obtain ⟨d', hd'⟩ := hheader
  refine ⟨o, d.text, d'.text, houtline, rfl, ?_⟩
  have hfile := output_swift (o := o) (t := .swift) rfl rfl
    (p := ⟨"", ["out", "core.swift"]⟩) rfl hd
  have hfile' := output_swift (o := o) (t := .cHeader) rfl rfl
    (p := ⟨"", ["out", "coreFFI.h"]⟩) rfl hd'
  rw [Style.outputs, houtline]
  change ([(Template.swift.name, Template.swift.filePattern),
    (Template.cHeader.name, Template.cHeader.filePattern)].mapM fun e =>
      Language.swift.style.output o out e.1 e.2) = _
  rw [List.mapM_cons, hfile, ok_bind, List.mapM_cons, hfile', ok_bind, List.mapM_nil]
  rfl

-- The workspace once the crates are loaded and the directory for bindings is made.
private def made : Workspace := { Source.StaticLibrary.listed with
  files := ⟨⟨"/", ["work"]⟩,
    [(["libcore.a"], .file (Source.twoCrates "util")), (["out"], .directory)]⟩ }

private def recorded : Workspace := { made with calls := [⟨"swift", "core", out, false⟩] }

private theorem writeTexts_recorded (text header : String) : ∃ w',
    ([((⟨"", ["out", "core.swift"]⟩ : Path), text), (⟨"", ["out", "coreFFI.h"]⟩, header)].forM
      fun f => Run.writeText f.1 f.2) recorded = (.ok (), w') ∧
      w'.files.read ⟨"", ["out", "core.swift"]⟩ = .ok (Utf8.encode text.toList) :=
  ⟨_, rfl, rfl⟩

private theorem exists_emit_core : ∃ w' text,
    emit toSwiftAndKotlin ⟨core, "swift", Language.swift.style.emitter⟩ made = (.ok (), w') ∧
      w'.files.read ⟨"", ["out", "core.swift"]⟩ = .ok (Utf8.encode (String.toList text)) := by
  obtain ⟨o, text, header, ho, hout, hfiles⟩ := exists_outputs_core
  obtain ⟨w', hwrite, hread⟩ := writeTexts_recorded text header
  have hmake : Run.makeDirectories (Language.swift.style.targetDirectory out o.packageName)
      recorded = (.ok (), recorded) := by
    rw [hout]
    rfl
  have hwritten : Language.swift.style.write ⟨core.interface, core.settings, out, false⟩
      recorded = (.ok _, w') :=
    Style.write_of_outputs rfl ho hfiles hmake hwrite (by decide)
  have hrecord : (Run.record ⟨"swift", core.crateName, out, false⟩ : Run GenerationError Unit)
      made = (.ok (), recorded) := rfl
  refine ⟨w', text, ?_, hread⟩
  rw [emit]
  refine (Run.bind_of_ok (Run.log_of_lt (by decide))).trans ?_
  refine (Run.bind_of_ok hrecord).trans ?_
  exact (Run.bind_of_ok (Run.lift_of_ok hwritten)).trans rfl

/-- Bindings of the first crate in the first language are written, and those in the second language
are refused for a static library. No emitter is called for the second crate. -/
theorem run_dispatches_static : (∀ e ∈ Catalog.builtIn none, e.2.KeepsCalls) ∧
    ∃ w' text, run (Catalog.builtIn none) toSwiftAndKotlin Source.StaticLibrary.start =
      (.error (.needsDynamicLibrary "kotlin" Source.StaticLibrary.request.library), w') ∧
        w'.calls = [⟨"swift", "core", out, false⟩] ∧
        w'.files.read ⟨"", ["out", "core.swift"]⟩ = .ok (Utf8.encode (String.toList text)) := by
  have hkeeps := Catalog.keepsCalls_builtIn none
  obtain ⟨w', text, hemit, hread⟩ := exists_emit_core
  have hswift : emitterFor? (Catalog.builtIn none) "swift" = some Language.swift.style.emitter := rfl
  have hkotlin : emitterFor? (Catalog.builtIn none) "kotlin" = some Language.kotlin.style.emitter :=
    rfl
  obtain ⟨-, -, hdispatches⟩ := run_dispatches hkeeps toSwiftAndKotlin Source.StaticLibrary.start
  obtain ⟨-, hloaded⟩ := hdispatches (List.cons_ne_nil _ _)
    (List.forall_mem_cons.mpr ⟨⟨_, hswift⟩, List.forall_mem_singleton.mpr ⟨_, hkotlin⟩⟩)
  obtain ⟨product, hproduct, -, hrefused⟩ := hloaded _ _ Source.StaticLibrary.load_start
  have hpairs : [core, util] ×ˢ ["swift", "kotlin"] =
      [(core, "swift"), (core, "kotlin"), (util, "swift"), (util, "kotlin")] := rfl
  obtain ⟨⟨s, l, e⟩, rest, rfl, hfirst, hrest⟩ :=
    List.map_eq_cons_iff.mp (hproduct.pairs.trans hpairs)
  obtain ⟨⟨s', l', e'⟩, after, rfl, hsecond, -⟩ := List.map_eq_cons_iff.mp hrest
  obtain ⟨rfl, rfl⟩ := Prod.mk.inj hfirst
  obtain ⟨rfl, rfl⟩ := Prod.mk.inj hsecond
  have hemitter : emitterFor? (Catalog.builtIn none) "swift" = some e :=
    hproduct.emitters ⟨core, "swift", e⟩ List.mem_cons_self
  have hemitter' : emitterFor? (Catalog.builtIn none) "kotlin" = some e' :=
    hproduct.emitters ⟨core, "kotlin", e'⟩ (List.mem_cons_of_mem _ List.mem_cons_self)
  rw [hswift] at hemitter
  rw [hkotlin] at hemitter'
  obtain rfl := Option.some.inj hemitter
  obtain rfl := Option.some.inj hemitter'
  have hcalls : w'.calls = [⟨"swift", "core", out, false⟩] := by
    have hcall : (emit toSwiftAndKotlin ⟨core, "swift", Language.swift.style.emitter⟩ made).2.calls
        = [⟨"swift", "core", out, false⟩] :=
      calls_emit Language.swift.style.keepsCalls_emitter made
    rwa [hemit] at hcall
  refine ⟨hkeeps, w', text, (hrefused _ _ _).mpr ⟨[_], _, after, made, rfl, rfl, rfl, rfl, rfl, ?_,
    rfl, .cons hemit (.nil w'), hcalls⟩, hcalls, hread⟩
  exact List.forall_mem_singleton.mpr rfl

end Static

end Generation
end BindGen

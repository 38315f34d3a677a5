import BindGen.Proofs.Run.Outcome
import BindGen.Source.Load

/-!
# The stages of loading

Loading lists the packages, finds the sources of all crates and lets them inherit, and only then
narrows them to what is asked for. It changes nothing, whether it succeeds or fails.
-/

namespace BindGen.Source

variable {r : LoadRequest} {packages : List Package} {w w' : Workspace}

/-- Lists the packages that the crates of a library are attributed to. -/
def listPackages (r : LoadRequest) : Run LoadError (List Package) := do
  Run.log part .info s!"Loading components from {r.library.text}"
  let packages ← Run.lift .graph (Package.listed r.manifest)
  Run.log part .debug s!"Build graph lists {packages.length} packages"
  if (Library.dynamicName? r.library).isNone then
    Run.log part .debug s!"{r.library.text} is not a dynamic library"
  return packages

/-- Loads the sources of all crates of a library. -/
def loadAll (r : LoadRequest) : Run LoadError (List Source) := do
  let packages ← listPackages r
  Run.orElse .settings (inheritAll (← find r packages))

/-- Narrows sources to those that are asked for. -/
def narrow (r : LoadRequest) (sources : List Source) : Run LoadError (List Source) := do
  let selected ← Run.orElse .selection (select sources r.crate r.library.text)
  Run.log part .debug s!"Selected {selected.length} of {sources.length} sources"
  return selected

/-- All sources are loaded before they are narrowed. -/
theorem load_eq (r : LoadRequest) : load r = loadAll r >>= narrow r := by
  rw [load, loadAll, listPackages]
  simp only [bind_assoc]
  refine bind_congr fun _ => bind_congr fun packages => bind_congr fun _ => ?_
  split
  · simp only [bind_assoc, pure_bind]
    rfl
  · rw [pure_bind]
    rfl

/-- What narrowing ends with is what the selection ends with. -/
theorem narrow_fst (r : LoadRequest) (sources : List Source) (w : Workspace) :
    (narrow r sources w).1 =
      (select sources r.crate r.library.text).mapError LoadError.selection := by
  cases hs : select sources r.crate r.library.text with
  | error e =>
    rw [narrow, hs, Run.bind_of_error (Run.orElse_of_error rfl)]
    rfl
  | ok selected =>
    rw [narrow, hs, Run.bind_of_ok (Run.orElse_of_ok rfl)]
    rfl

/-- What is loaded comes from the packages that are listed, and from all sources that are found for
them after they have inherited. -/
theorem exists_of_loadAll {sources : List Source} (h : loadAll r w = (.ok sources, w')) :
    ∃ packages w₁ found w₂, listPackages r w = (.ok packages, w₁) ∧
      find r packages w₁ = (.ok found, w₂) ∧ inheritAll found = .ok sources := by
  obtain ⟨packages, w₁, hlisted, h⟩ := Run.exists_of_bind h
  obtain ⟨found, w₂, hfind, h⟩ := Run.exists_of_bind h
  exact ⟨packages, w₁, found, w₂, hlisted, hfind, eq_ok_of_mapError (Run.eq_of_ofExcept h).1⟩

/-- The packages are those of the listing that the workspace answers with. -/
theorem ofReply_of_listPackages (h : listPackages r w = (.ok packages, w')) :
    Package.ofReply (w.programs (Package.listingCommand r.manifest)) = .ok packages := by
  obtain ⟨_, w₁, hlog, h⟩ := Run.exists_of_bind h
  obtain ⟨listed, _, hlisted, h⟩ := Run.exists_of_bind h
  obtain ⟨_, _, -, h⟩ := Run.exists_of_bind h
  obtain ⟨_, h⟩ := Run.exists_of_logIf h
  obtain ⟨rfl, -⟩ := Run.eq_of_pure h
  obtain ⟨_, w₂, hlog', hlisted⟩ := Run.exists_of_bind (Run.eq_of_lift hlisted)
  obtain ⟨reply, _, hstart, hlisted⟩ := Run.exists_of_bind hlisted
  have hbefore := ((Run.untouched_log _ _ _).of_eq hlog).trans
    ((Run.untouched_log _ _ _).of_eq hlog')
  cases hstart
  rw [← hbefore.programs]
  exact (Run.eq_of_ofExcept hlisted).1

/-! ## How loading fails -/

/-- An error of a stage before the narrowing. -/
def BeforeSelection (e : LoadError) : Prop := ∀ cause, e ≠ .selection cause

private theorem raises_listPackages (r : LoadRequest) :
    Run.Raises BeforeSelection (listPackages r) := by
  rw [listPackages]
  refine (Run.Raises.log _ _ _).bind fun _ => ?_
  refine (Run.Raises.lift fun _ _ => LoadError.noConfusion).bind fun packages => ?_
  exact (Run.Raises.log _ _ _).bind fun _ => .logIf (.pure packages)

private theorem raises_readItems (library : Path) :
    Run.Raises BeforeSelection (readItems library) := by
  have hunread (e : FileError) : BeforeSelection (unread library e) := by
    rw [unread]
    split <;> exact fun _ => LoadError.noConfusion
  have hitems (content : Bytes) : ∀ e, itemsOf library content = .error e → BeforeSelection e := by
    intro e he
    rw [itemsOf] at he
    split at he <;> cases he <;> exact fun _ => LoadError.noConfusion
  refine Run.Raises.files.bind fun files => (Run.Raises.orElse hunread).bind fun content => ?_
  refine (Run.Raises.ofExcept (hitems content)).bind fun items => ?_
  exact (Run.Raises.log _ _ _).bind fun _ => .pure items

private theorem raises_ofGroup (r : LoadRequest) (packages : List Package) (g : Group) :
    Run.Raises BeforeSelection (ofGroup r packages g) := by
  refine (Run.Raises.orElse fun _ _ => LoadError.noConfusion).bind fun package => ?_
  refine Run.Raises.files.bind fun files => ?_
  refine (Run.Raises.orElse fun _ _ => LoadError.noConfusion).bind fun declared => ?_
  refine Run.Raises.logIf ?_
  refine (Run.Raises.orElse fun _ _ => LoadError.noConfusion).bind fun i => ?_
  exact (Run.Raises.orElse fun _ _ => LoadError.noConfusion).bind fun settings => .pure _

/-- No stage before the narrowing fails with its errors. -/
theorem raises_loadAll (r : LoadRequest) : Run.Raises BeforeSelection (loadAll r) := by
  refine (raises_listPackages r).bind fun packages => Run.Raises.bind ?_ fun found => ?_
  · refine (raises_readItems r.library).bind fun items => ?_
    refine (Run.Raises.orElse fun _ _ => LoadError.noConfusion).bind fun groups => ?_
    exact (Run.Raises.log _ _ _).bind fun _ => .mapM (raises_ofGroup r packages) groups
  · exact .orElse fun _ _ => LoadError.noConfusion

/-! ## What loading leaves -/

private theorem untouched_ofGroup (r : LoadRequest) (packages : List Package) (g : Group) :
    Run.Leaves Untouched (ofGroup r packages g) := by
  refine (Run.Leaves.ofExcept _).bind fun package => Run.Leaves.files.bind fun files => ?_
  refine (Run.Leaves.ofExcept _).bind fun declared => Run.untouched_logIf ?_
  exact (Run.Leaves.ofExcept _).bind fun i => (Run.Leaves.ofExcept _).bind fun settings => .pure _

private theorem untouched_find (r : LoadRequest) (packages : List Package) :
    Run.Leaves Untouched (find r packages) := by
  have hitems : Run.Leaves Untouched (readItems r.library) := by
    refine Run.Leaves.files.bind fun files => (Run.Leaves.ofExcept _).bind fun content => ?_
    refine (Run.Leaves.ofExcept _).bind fun items => ?_
    exact (Run.untouched_log _ _ _).bind fun _ => .pure items
  refine hitems.bind fun items => (Run.Leaves.ofExcept _).bind fun groups => ?_
  exact (Run.untouched_log _ _ _).bind fun _ => .mapM fun g _ => untouched_ofGroup r packages g

/-- Loading changes nothing, however it ends. -/
theorem untouched_load (r : LoadRequest) : Run.Leaves Untouched (load r) := by
  have hlisted : Run.Leaves Untouched (Package.listed r.manifest) :=
    (Run.untouched_log _ _ _).bind fun _ =>
      (Run.untouched_start _).bind fun reply => .ofExcept _
  have hpackages : Run.Leaves Untouched (listPackages r) := by
    refine (Run.untouched_log _ _ _).bind fun _ => hlisted.lift.bind fun packages => ?_
    exact (Run.untouched_log _ _ _).bind fun _ => Run.untouched_logIf (.pure packages)
  rw [load_eq]
  refine Run.Leaves.bind ?_ fun sources => ?_
  · exact hpackages.bind fun packages => (untouched_find r packages).bind fun found => .ofExcept _
  · exact (Run.Leaves.ofExcept _).bind fun selected =>
      (Run.untouched_log _ _ _).bind fun _ => .pure selected

end BindGen.Source

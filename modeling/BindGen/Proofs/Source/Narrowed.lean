import BindGen.Proofs.Emitter.Outputs
import BindGen.Proofs.Metadata.Wire
import BindGen.Proofs.Package.Listing
import BindGen.Proofs.Source.Found
import BindGen.Proofs.Source.Stages

/-!
# Loading one crate

A run that asks for one crate loads all crates first: inheritance is among all of them, and only
then the list is narrowed. The crates of a library with typed items differ, so that the one that is
asked for is there once or not at all.
-/

namespace BindGen

namespace Package

/-- The one package that exposes a crate is the only one with a target of that name. -/
theorem filter_of_exposing {packages : List Package} {name : String} {p : Package}
    (h : exposing packages (.text name) = .ok p) :
    (packages.filter fun p => p.targets.any fun t => t.crateName = name) = [p] := by
  have hexposes : (fun p : Package => p.exposes (.text name)) =
      fun p => p.targets.any fun t => t.crateName = name := by
    funext p
    simp [exposes, Value.same_scalar]
  rw [← hexposes]
  rw [exposing] at h
  split at h
  · cases h
  · next hp =>
    obtain rfl := Except.ok.inj h
    exact hp
  · cases h

end Package

namespace Source

variable {r : LoadRequest} {packages : List Package} {w w' : Workspace}

/-- A source after inheritance is one before it with other settings. -/
theorem forall₂_of_inheritAll {sources sources' : List Source}
    (h : inheritAll sources = .ok sources') :
    List.Forall₂ (fun s s' => s'.package = s.package ∧ s'.crateName = s.crateName) sources
      sources' := by
  obtain ⟨plans, hplans, h⟩ := exists_of_bind_eq_ok h
  have hplanned : List.Forall₂ (fun e p => p.1 = e.1) sources.zipIdx plans := by
    refine (forall₂_of_mapM hplans).imp fun e p hp => ?_
    obtain ⟨_, -, hp⟩ := exists_of_map_eq_ok hp
    rw [← hp]
  have hmade : List.Forall₂ (fun p s' => s'.package = p.1.package ∧ s'.crateName = p.1.crateName)
      plans sources' := by
    refine (forall₂_of_mapM h).imp fun p s' hs => ?_
    obtain ⟨_, -, hs⟩ := exists_of_map_eq_ok hs
    rw [← hs]
    exact ⟨rfl, rfl⟩
  have hfirst : plans.map Prod.fst = sources := by
    rw [map_eq_of_forall₂ (g := Prod.fst) hplanned.flip, List.zipIdx_map_fst]
  rw [← hfirst]
  exact List.forall₂_map_left_iff.mpr hmade

/-- Sources stay attributed when they inherit. -/
theorem Attributed.inheritAll {sources sources' : List Source} (h : Attributed packages sources)
    (hi : inheritAll sources = .ok sources') : Attributed packages sources' := by
  have hkept := forall₂_of_inheritAll hi
  have hcrates : sources'.map (·.crateName) = sources.map (·.crateName) :=
    map_eq_of_forall₂ (hkept.flip.imp fun _ _ hs => hs.2)
  refine ⟨hcrates ▸ h.ordered, fun s' hs' => ?_⟩
  obtain ⟨s, hs, hpackage, hcrate⟩ := exists_mem_of_forall₂ hkept.flip hs'
  rw [hpackage, hcrate]
  exact h.exposed s hs

/-- The items that loading reads from a library are typed. -/
def ReadsTyped (r : LoadRequest) (w : Workspace) : Prop :=
  ∀ packages w₁ items w₂, listPackages r w = (.ok packages, w₁) →
    readItems r.library w₁ = (.ok items, w₂) → ∀ item ∈ items, item.isTyped = true

/-- The sources of a library with typed items are attributed to the packages that are listed. -/
theorem attributed_of_loadAll {sources : List Source} (ht : ReadsTyped r w)
    (h : loadAll r w = (.ok sources, w')) :
    ∃ packages, Package.ofReply (w.programs (Package.listingCommand r.manifest)) = .ok packages ∧
      Attributed packages sources := by
  obtain ⟨packages, w₁, found, w₂, hlisted, hfind, hall⟩ := exists_of_loadAll h
  obtain ⟨hattributed, -⟩ := attributed_of_find hfind fun items w₂ hitems =>
    ht packages w₁ items w₂ hlisted hitems
  exact ⟨packages, ofReply_of_listPackages hlisted, hattributed.inheritAll hall⟩

/-! ## Narrowing -/

/-- Of attributed sources one is of a crate, or none is. -/
theorem Attributed.select_eq {sources : List Source} (h : Attributed packages sources)
    (crate : String) (library : Option String) :
    (∃ s ∈ sources, s.crateName = .text crate ∧ select sources crate library = .ok [s]) ∨
      (∀ s ∈ sources, s.crateName ≠ .text crate) ∧
        select sources crate library = .error (.notFound crate library) := by
  have hsame : ∀ s ∈ sources,
      s.crateName.same (.text crate) = true ↔ s.crateName = .text crate := by
    intro s hs
    obtain ⟨name, hname⟩ := h.named s hs
    rw [hname]
    simp
  have hpick : ∀ s ∈ sources.filter fun s => s.crateName.same (.text crate),
      s ∈ sources ∧ s.crateName = .text crate := by
    intro s hs
    obtain ⟨hs, hp⟩ := List.mem_filter.mp hs
    exact ⟨hs, (hsame s hs).mp hp⟩
  have hdistinct := h.distinct.filter fun s => s.crateName.same (.text crate)
  rw [select]
  cases hf : sources.filter fun s => s.crateName.same (.text crate) with
  | nil =>
    refine .inr ⟨fun s hs hcrate => ?_, rfl⟩
    exact List.filter_eq_nil_iff.mp hf s hs ((hsame s hs).mpr hcrate)
  | cons s rest =>
    rw [hf] at hpick hdistinct
    obtain ⟨hs, hcrate⟩ := hpick s List.mem_cons_self
    cases rest with
    | nil => exact .inl ⟨s, hs, hcrate, rfl⟩
    | cons t rest =>
      have hother := (hpick t (List.mem_cons_of_mem s List.mem_cons_self)).2
      exact absurd (hcrate.trans hother.symm)
        ((List.pairwise_cons.mp hdistinct).1 t List.mem_cons_self)

/-- Loading one crate fails as loading all crates does, and then for the same reason. If all crates
are loaded, they come in the order of their names, all of which differ, and each with the only
package that has a target of this name; what is loaded for one crate is then its source among these,
and nothing is found if there is none. -/
theorem load_narrowed {r : LoadRequest} {w : Workspace} (ht : ReadsTyped r w) :
    (∀ filter count crate library,
      (load { r with crate := filter } w).1 ≠ .error (.selection (.ambiguous count crate library))) ∧
    (∀ e w', load { r with crate := none } w = (.error e, w') →
      ∀ crate, load { r with crate := some crate } w = (.error e, w')) ∧
    ∀ sources w', load { r with crate := none } w = (.ok sources, w') →
      (∃ names : List String, sources.map (·.crateName) = names.map (fun name => Value.text name) ∧
        names.Pairwise (· < ·)) ∧
      (∃ packages,
        Package.ofReply (w.programs (Package.listingCommand r.manifest)) = .ok packages ∧
        ∀ s ∈ sources, ∃ name : String, s.crateName = .text name ∧
          (packages.filter fun p => p.targets.any fun t => t.crateName = name) = [s.package]) ∧
      ∀ crate : String,
        (∃ s ∈ sources, s.crateName = .text crate ∧
          (load { r with crate := some crate } w).1 = .ok [s]) ∨
        (∀ s ∈ sources, s.crateName ≠ .text crate) ∧
          (load { r with crate := some crate } w).1 =
            .error (.selection (.notFound crate r.library.text)) := by
  have hload (filter : Option String) :
      load { r with crate := filter } = loadAll r >>= narrow { r with crate := filter } :=
    load_eq { r with crate := filter }
  rcases hall : loadAll r w with ⟨e | sources, w₁⟩
  · have hfails (filter : Option String) :
        load { r with crate := filter } w = (.error e, w₁) := by
      rw [hload, Run.bind_of_error hall]
    refine ⟨fun filter count crate library hambiguous => ?_, fun e' w' he crate => ?_,
      fun sources w' hs => ?_⟩
    · rw [hfails] at hambiguous
      obtain rfl := Except.error.inj hambiguous
      exact raises_loadAll r w _ w₁ hall _ rfl
    · rw [hfails, ← he, hfails]
    · rw [hfails] at hs
      cases hs
  · obtain ⟨packages, hpackages, hattributed⟩ := attributed_of_loadAll ht hall
    have hnarrowed (filter : Option String) : (load { r with crate := filter } w).1 =
        (select sources filter r.library.text).mapError LoadError.selection := by
      rw [hload, Run.bind_of_ok hall]
      exact narrow_fst _ sources w₁
    refine ⟨fun filter count crate library hambiguous => ?_, fun e w' he => ?_,
      fun sources' w' hs => ?_⟩
    · rw [hnarrowed] at hambiguous
      cases filter with
      | none => cases hambiguous
      | some name =>
        obtain ⟨s, -, -, hs⟩ | ⟨-, hs⟩ := hattributed.select_eq name r.library.text <;>
          rw [hs] at hambiguous <;> cases hambiguous
    · have hnone := hnarrowed none
      rw [he] at hnone
      cases hnone
    · have hnone := hnarrowed none
      rw [hs] at hnone
      obtain rfl := Except.ok.inj hnone
      refine ⟨hattributed.ordered, ⟨packages, hpackages, fun s hs => ?_⟩, fun crate => ?_⟩
      · obtain ⟨name, hname⟩ := hattributed.named s hs
        exact ⟨name, hname, Package.filter_of_exposing (hname ▸ hattributed.exposed s hs)⟩
      · rw [hnarrowed]
        obtain ⟨s, hmem, hcrate, hs⟩ | ⟨hnone, hs⟩ :=
          hattributed.select_eq crate r.library.text <;> rw [hs]
        · exact .inl ⟨s, hmem, hcrate, rfl⟩
        · exact .inr ⟨hnone, rfl⟩

/-! ## Libraries of two crates -/

/-- The namespace of a second crate, which may be that of the first one. -/
def utilNamespace (name : String) : Item := .namespaceDecl ⟨"util", name⟩

/-- The bytes of a library of two crates, `core` and `util`. -/
def twoCrates (name : String) : Bytes :=
  Wire.encodeItem Wire.coreNamespace ++ Wire.encodeItem (utilNamespace name)

section TwoCrates

variable {name : String}

private theorem hasJsonFields_utilNamespace (name : String) :
    (utilNamespace name).HasJsonFields 985 := by
  refine List.forall_mem_cons.mpr ⟨.scalar trivial, List.forall_mem_cons.mpr ⟨.scalar trivial, ?_⟩⟩
  exact List.forall_mem_nil _

private theorem length_utilNamespace (h : name = "core" ∨ name = "util") :
    (Utf8.encode (Json.write (.table (utilNamespace name).payload))).length < 2 ^ 32 := by
  rw [Json.write_table (utilNamespace name).worded_payload,
    Table.sortOn_eq_of_pairwise (utilNamespace name).distinct_payload
      (utilNamespace name).worded_payload ((List.Perm.swap _ _ _).cons _)]
  all_goals rcases h with rfl | rfl <;> decide

/-- The items of a library of two crates. -/
theorem extract_twoCrates (h : name = "core" ∨ name = "util") :
    Wire.extract (twoCrates name) = .ok [Wire.coreNamespace, utilNamespace name] := by
  have h := Wire.extract_pair Wire.hasJsonFields_coreNamespace (hasJsonFields_utilNamespace name)
    Wire.length_coreNamespace (length_utilNamespace h)
  simpa [twoCrates, Wire.coreNamespace, utilNamespace, Item.inOrder, Value.inOrder_scalar] using h

/-- The groups of a library of two crates. -/
theorem groups_twoCrates (name : String) :
    Grouping.groups [Wire.coreNamespace, utilNamespace name] =
      .ok [⟨⟨"core", "core"⟩, []⟩, ⟨⟨"util", name⟩, []⟩] := by
  have hfound : Grouping.namespaces [Wire.coreNamespace, utilNamespace name] =
      .ok [("core", ⟨"core", "core"⟩), ("util", ⟨"util", name⟩)] := rfl
  have hplaced : [Wire.coreNamespace, utilNamespace name].foldlM Grouping.place
      [("core", []), ("util", [])] = .ok [("core", []), ("util", [])] := rfl
  have hsort : sortByKey Prod.fst
      [(("core" : Scalar), (⟨"core", "core"⟩ : NamespaceDecl)), ("util", ⟨"util", name⟩)] =
        .ok [("core", ⟨"core", "core"⟩), ("util", ⟨"util", name⟩)] := by
    rw [sortByKey_of_words (by simp), Table.sortOn_eq_of_pairwise (by simp [Table.Distinct])
      (by simp [Table.Worded]) (.refl _) (List.pairwise_pair.mpr ?_)]
    change ("core" : Scalar).le "util" = true
    decide
  rw [Grouping.groups, hfound, ok_bind]
  change ([Wire.coreNamespace, utilNamespace name].foldlM Grouping.place
      [("core", []), ("util", [])] >>= _) = _
  rw [hplaced, ok_bind, hsort]
  rfl

/-- A workspace with a library of two crates, in which the packages of both are listed. -/
def linkedWorkspace (file name : String) (dependencies : List String) : Workspace :=
  ⟨⟨⟨"/", ["work"]⟩, [([file], .file (twoCrates name))]⟩,
    fun _ => .finished (Package.listing [("core", []), ("util", dependencies)]), [], [],
    Journal.initial "", []⟩

variable {file : String} {dependencies : List String}

/-- The packages that are listed in such a workspace. -/
theorem listed_linkedWorkspace : Package.listed none (linkedWorkspace file name dependencies) =
    (.ok [Package.ofNames "core" [], Package.ofNames "util" dependencies],
      { linkedWorkspace file name dependencies with
        commands := [Package.listingCommand none] }) := by
  let w := linkedWorkspace file name dependencies
  have hreply : Package.ofReply (w.programs (Package.listingCommand none)) =
      .ok [Package.ofNames "core" [], Package.ofNames "util" dependencies] :=
    Package.ofOutput_listing [("core", []), ("util", dependencies)]
  have hstart : (Run.start (Package.listingCommand none) : Run GraphError ProgramReply) w =
      (.ok (w.programs (Package.listingCommand none)),
        { w with commands := [Package.listingCommand none] }) := rfl
  have hquiet : Level.debug.rank < w.journal.level.rank := by
    change Level.debug.rank < (Journal.initial "").level.rank
    decide
  change (Package.listed none) w = _
  rw [Package.listed, Run.bind_of_ok (Run.log_of_lt hquiet), Run.bind_of_ok hstart, hreply]
  rfl

/-- The items that are read from a library of two crates. -/
theorem readItems_of_read {library : Path} {w : Workspace} (h : name = "core" ∨ name = "util")
    (hread : w.files.read library = .ok (twoCrates name)) (hj : w.journal = Journal.initial "") :
    readItems library w = (.ok [Wire.coreNamespace, utilNamespace name], w) := by
  have hfiles : (Run.files : Run LoadError Tree) w = (.ok w.files, w) := rfl
  have hitems : itemsOf library (twoCrates name) =
      .ok [Wire.coreNamespace, utilNamespace name] := by
    rw [itemsOf, extract_twoCrates h]
  have hquiet : Level.debug.rank < w.journal.level.rank := by
    rw [hj]
    decide
  rw [readItems, Run.bind_of_ok hfiles, Run.bind_of_ok (Run.orElse_of_ok hread),
    Run.bind_of_ok (Run.ofExcept_of_ok hitems), Run.bind_of_ok (Run.log_of_lt hquiet)]
  rfl

end TwoCrates

/-! ## A static library -/

namespace StaticLibrary

/-- A request for all crates of the library. -/
def request : LoadRequest := ⟨⟨"", ["libcore.a"]⟩, none, none, none⟩

/-- A workspace with the library. The package of its second crate depends on that of the first. -/
def start : Workspace := linkedWorkspace "libcore.a" "util" ["core"]

/-- The workspace once the packages are listed. -/
def listed : Workspace := { start with commands := [Package.listingCommand none] }

/-- The source of a crate before inheritance. -/
def found (crate : String) (dependencies : List String) : Source where
  package := Package.ofNames crate dependencies
  crateName := crate
  interface := .bare crate crate
  settings := ⟨some ⟨"/", ["work", crate]⟩,
    [("crate_name", crate), ("namespace", crate), ("module_name", crate)], [], #[], [], false⟩

/-- The source of the first crate after inheritance. -/
def core : Source :=
  { found "core" [] with settings := { (found "core" []).settings with inherited := true } }

/-- The source of the second crate after inheritance, which knows the module of the first. -/
def util : Source :=
  { found "util" ["core"] with settings := { (found "util" ["core"]).settings with
      shared := [("crate_name", "util"), ("namespace", "util"), ("module_name", "util"),
        ("external_modules", .table [("core", "core")])]
      inheritedFrom := ["core"]
      inherited := true } }

private theorem listPackages_start : listPackages request start =
    (.ok [Package.ofNames "core" [], Package.ofNames "util" ["core"]], listed) := by
  have hlisted : Package.listed request.manifest start =
      (.ok [Package.ofNames "core" [], Package.ofNames "util" ["core"]], listed) :=
    listed_linkedWorkspace
  rw [listPackages, Run.bind_of_ok (Run.log_of_lt (by decide)),
    Run.bind_of_ok (Run.lift_of_ok hlisted), Run.bind_of_ok (Run.log_of_lt (by decide))]
  rfl

private theorem readItems_listed : readItems request.library listed =
    (.ok [Wire.coreNamespace, utilNamespace "util"], listed) :=
  readItems_of_read (.inr rfl) rfl rfl

private theorem inheritAll_found :
    inheritAll [found "core" [], found "util" ["core"]] = .ok [core, util] := by
  have hfresh : Fresh [found "core" [], found "util" ["core"]] := by
    refine ⟨fun s hs => ?_, by simp [found], fun s hs => ?_⟩
    · obtain rfl | rfl : s = found "core" [] ∨ s = found "util" ["core"] := by simpa using hs
      all_goals exact ⟨_, rfl⟩
    · obtain rfl | rfl : s = found "core" [] ∨ s = found "util" ["core"] := by simpa using hs
      all_goals rfl
  have hcore : inheriting [found "core" [], found "util" ["core"]] (found "core" []) =
      .ok core := by
    have hnone : inheritance [found "core" [], found "util" ["core"]] (found "core" []) = [] :=
      rfl
    rw [inheriting, hnone, Settings.inherit, sortByKey_nil]
    rfl
  have hutil : inheriting [found "core" [], found "util" ["core"]] (found "util" ["core"]) =
      .ok util := by
    have hone : inheritance [found "core" [], found "util" ["core"]] (found "util" ["core"]) =
        [(.text "core", (found "core" []).settings)] := rfl
    have hsort : sortByKey Prod.fst [(("core" : Scalar), (found "core" []).settings)] =
        .ok [("core", (found "core" []).settings)] := by
      rw [sortByKey_of_words (by simp), sortOn_of_words (by simp), List.mergeSort_singleton]
    rw [inheriting, hone, Settings.inherit, hsort]
    rfl
  rw [inheritAll_eq hfresh, List.mapM_cons, hcore, List.mapM_cons, hutil]
  rfl

private theorem loadAll_start : loadAll request start = (.ok [core, util], listed) := by
  have hgroup : ofGroup request [Package.ofNames "core" [], Package.ofNames "util" ["core"]]
      ⟨⟨"core", "core"⟩, []⟩ listed = (.ok (found "core" []), listed) := rfl
  have hgroup' : ofGroup request [Package.ofNames "core" [], Package.ofNames "util" ["core"]]
      ⟨⟨"util", "util"⟩, []⟩ listed = (.ok (found "util" ["core"]), listed) := rfl
  have hfind : find request [Package.ofNames "core" [], Package.ofNames "util" ["core"]] listed =
      (.ok [found "core" [], found "util" ["core"]], listed) := by
    rw [find]
    refine (Run.bind_of_ok readItems_listed).trans ?_
    rw [Run.bind_of_ok (Run.orElse_of_ok (groups_twoCrates "util")),
      Run.bind_of_ok (Run.log_of_lt (by decide)), List.mapM_cons, Run.bind_of_ok hgroup,
      List.mapM_cons, List.mapM_nil, bind_assoc, Run.bind_of_ok hgroup']
    rfl
  rw [loadAll, Run.bind_of_ok listPackages_start, Run.bind_of_ok hfind, inheritAll_found]
  rfl

/-- Both crates of the library are loaded, in the order of their names. -/
theorem load_start : load request start = (.ok [core, util], listed) := by
  rw [load_eq]
  exact (Run.bind_of_ok loadAll_start).trans rfl

private theorem readsTyped_start : ReadsTyped request start := by
  intro packages w₁ items w₂ hlisted hitems
  rw [listPackages_start] at hlisted
  obtain ⟨-, rfl⟩ := Prod.mk.inj hlisted
  rw [readItems_listed] at hitems
  obtain ⟨rfl, -⟩ := Run.eq_of_pure hitems
  decide

/-- Each of two crates is loaded alone as it is loaded beside the other, also the one that inherits
from the one that is left out, and a third one is not found. -/
theorem load_narrowed_static : ∃ w', ReadsTyped request start ∧
    load { request with crate := none } start = (.ok [core, util], w') ∧
    util.settings.inheritedFrom = [core.crateKey] ∧
    (load { request with crate := some "core" } start).1 = .ok [core] ∧
    (load { request with crate := some "util" } start).1 = .ok [util] ∧
    (load { request with crate := some "app" } start).1 =
      .error (.selection (.notFound "app" "libcore.a")) := by
  have hload : load { request with crate := none } start = (.ok [core, util], listed) := load_start
  obtain ⟨-, -, hnarrowed⟩ := load_narrowed readsTyped_start
  obtain ⟨-, -, honly⟩ := hnarrowed [core, util] listed hload
  have heither {s : Source} (hs : s ∈ [core, util]) : s = core ∨ s = util := by simpa using hs
  have halone {s : Source} {crate : String} (hs : s ∈ [core, util])
      (hcrate : s.crateName = .text crate) :
      (load { request with crate := some crate } start).1 = .ok [s] := by
    obtain ⟨s', hs', hname, hfound⟩ | ⟨hnone, -⟩ := honly crate
    · have hsame : s' = s := by
        have heq := hname.trans hcrate.symm
        rcases heither hs with rfl | rfl <;> rcases heither hs' with rfl | rfl
        · rfl
        · simp [core, util, found] at heq
        · simp [core, util, found] at heq
        · rfl
      exact hsame ▸ hfound
    · exact absurd hcrate (hnone s hs)
  refine ⟨listed, readsTyped_start, hload, rfl, halone List.mem_cons_self rfl,
    halone (List.mem_cons_of_mem _ List.mem_cons_self) rfl, ?_⟩
  obtain ⟨s, hs, hname, -⟩ | ⟨-, hnone⟩ := honly "app"
  · obtain rfl | rfl := heither hs <;> simp [core, util, found] at hname
  · exact hnone

end StaticLibrary

end Source
end BindGen

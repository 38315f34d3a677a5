import BindGen.Proofs.Metadata.Partition
import BindGen.Proofs.Run.Trace
import BindGen.Proofs.Source.Inheritance
import BindGen.Source.Load

/-!
# The sources of a library

The sources that are found in a library with typed items belong to different crates and stand in the
order of these. Each comes from the package that exposes its crate, and none of them has inherited.
-/

namespace BindGen

/-- Groups of typed items stand in the order of the names of their crates, all of which differ. -/
theorem Grouping.groups_ordered {items : List Item} {gs : List Group}
    (ht : ∀ item ∈ items, item.isTyped = true) (h : groups items = .ok gs) :
    ∃ names : List String, gs.map Group.crateName = names.map (fun name => Value.text name) ∧
      names.Pairwise (· < ·) :=
  (partitions_of_groups (fun item hi => Item.isAddressed_of_isTyped (ht item hi)) h).ordered

namespace Settings

private theorem inherited_of_ofTable {root : Path} {data : Linked} {s : Settings}
    (h : ofTable root data = .ok s) : s.inherited = false := by
  obtain ⟨bindings, -, h⟩ := exists_of_bind_eq_ok h
  obtain rfl := Except.ok.inj h
  rfl

private theorem inherited_of_laidOver {files : Tree} {root file : Path} {own : Linked}
    {s : Settings}
    (h : (do
      let file ← withoutHome file
      if !(← (files.has file).mapError SettingsError.file) then
        throw (SettingsError.overrideNotFound file.text)
      ofTable root (← (overlayLinked own (← readFile files file)).mapError SettingsError.fault)) =
        Except.ok s) : s.inherited = false := by
  obtain ⟨file, -, h⟩ := exists_of_bind_eq_ok h
  obtain ⟨found, -, h⟩ := exists_of_bind_eq_ok h
  split at h
  · cases h
  · obtain ⟨data, -, h⟩ := exists_of_bind_eq_ok h
    obtain ⟨merged, -, h⟩ := exists_of_bind_eq_ok h
    exact inherited_of_ofTable h

/-- Settings that are loaded have not inherited. -/
theorem inherited_of_load {files : Tree} {crate : Path} {override : Option Path} {s : Settings}
    (h : load files crate override = .ok s) : s.inherited = false := by
  obtain ⟨root, -, h⟩ := exists_of_bind_eq_ok h
  obtain ⟨file?, -, h⟩ := exists_of_bind_eq_ok h
  cases override with
  | none =>
    cases file? <;>
      · obtain ⟨own, -, h⟩ := exists_of_bind_eq_ok h
        exact inherited_of_ofTable h
  | some file =>
    cases file? <;>
      · obtain ⟨own, -, h⟩ := exists_of_bind_eq_ok h
        exact inherited_of_laidOver h

end Settings

namespace Source

variable {r : LoadRequest} {packages : List Package} {w w' : Workspace}

/-- Taking names does not make settings inherit. -/
theorem inherited_named (s : Settings) (dynamicName : Option String) (i : Interface) :
    (named s dynamicName i).inherited = s.inherited := by
  cases dynamicName <;>
    simp only [named, Settings.fromCdylibName, Settings.fromInterface, Settings.fromNames] <;>
    split <;> split <;> rfl

/-- A source is made for the crate of its group and the package that exposes it, and has not
inherited. -/
theorem eq_of_ofGroup {g : Group} {s : Source} (h : ofGroup r packages g w = (.ok s, w')) :
    s.crateName = g.crateName ∧ Package.exposing packages s.crateName = .ok s.package ∧
      s.settings.inherited = false := by
  obtain ⟨package, _, hpackage, h⟩ := Run.exists_of_bind h
  obtain ⟨files, _, -, h⟩ := Run.exists_of_bind h
  obtain ⟨declared, _, -, h⟩ := Run.exists_of_bind h
  obtain ⟨_, h⟩ := Run.exists_of_logIf h
  obtain ⟨i, _, -, h⟩ := Run.exists_of_bind h
  obtain ⟨settings, _, hs, h⟩ := Run.exists_of_bind h
  obtain ⟨rfl, -⟩ := Run.eq_of_pure h
  obtain ⟨hs, -⟩ := Run.eq_of_ofExcept hs
  refine ⟨rfl, eq_ok_of_mapError (Run.eq_of_ofExcept hpackage).1, ?_⟩
  dsimp only
  rw [inherited_named, Settings.inherited_of_load (eq_ok_of_mapError hs)]

/-- Sources stand in the order of the names of their crates, and each has the one package that
exposes its crate. -/
structure Attributed (packages : List Package) (sources : List Source) : Prop where
  ordered : ∃ names : List String, sources.map (·.crateName) =
    names.map (fun name => Value.text name) ∧ names.Pairwise (· < ·)
  exposed : ∀ s ∈ sources, Package.exposing packages s.crateName = .ok s.package

/-- The sources that are found in a library with typed items stand in the order of their crates,
each with the package that exposes it, and none of them has inherited. -/
theorem attributed_of_find {sources : List Source} (h : find r packages w = (.ok sources, w'))
    (ht : ∀ items w₁, readItems r.library w = (.ok items, w₁) →
      ∀ item ∈ items, item.isTyped = true) :
    Attributed packages sources ∧ ∀ s ∈ sources, s.settings.inherited = false := by
  obtain ⟨items, _, hitems, h⟩ := Run.exists_of_bind h
  obtain ⟨groups, _, hgroups, h⟩ := Run.exists_of_bind h
  obtain ⟨_, _, -, h⟩ := Run.exists_of_bind h
  obtain ⟨names, hnames, hordered⟩ := Grouping.groups_ordered (ht items _ hitems)
    (eq_ok_of_mapError (Run.eq_of_ofExcept hgroups).1)
  -- each source is made from the group that stands at its place
  have hmade := (Run.forall₂_of_mapM h).imp fun g s ⟨_, _, hs⟩ => eq_of_ofGroup hs
  have hfrom : ∀ s ∈ sources, ∃ g ∈ groups, s.crateName = g.crateName ∧
      Package.exposing packages s.crateName = .ok s.package ∧ s.settings.inherited = false :=
    fun s hs => exists_mem_of_forall₂ hmade.flip hs
  have hcrates : sources.map (·.crateName) = groups.map Group.crateName :=
    map_eq_of_forall₂ (hmade.flip.imp fun _ _ hs => hs.1)
  refine ⟨⟨⟨names, hcrates.trans hnames, hordered⟩, fun s hs => ?_⟩, fun s hs => ?_⟩
  · obtain ⟨g, -, -, hexposed, -⟩ := hfrom s hs
    exact hexposed
  · obtain ⟨g, -, -, -, hfresh⟩ := hfrom s hs
    exact hfresh

namespace Attributed

variable {sources : List Source}

/-- The crates of attributed sources are texts. -/
theorem named (h : Attributed packages sources) :
    ∀ s ∈ sources, ∃ name : String, s.crateName = .text name := by
  obtain ⟨names, hnames, -⟩ := h.ordered
  intro s hs
  have hmem : s.crateName ∈ names.map (fun name => Value.text name) :=
    hnames ▸ List.mem_map.mpr ⟨s, hs, rfl⟩
  obtain ⟨name, -, hname⟩ := List.mem_map.mp hmem
  exact ⟨name, hname.symm⟩

/-- No two attributed sources are of one crate. -/
theorem distinct (h : Attributed packages sources) :
    sources.Pairwise fun s t => s.crateName ≠ t.crateName := by
  obtain ⟨names, hnames, hordered⟩ := h.ordered
  rw [← List.pairwise_map (f := fun s : Source => s.crateName) (R := (· ≠ ·)), hnames,
    List.pairwise_map]
  refine hordered.imp fun {a b} hlt hsame => ?_
  obtain rfl : a = b := by simpa using hsame
  exact String.lt_irrefl a hlt

end Attributed

/-- The sources that are found in a library with typed items are of different crates, and none of
them has inherited. -/
theorem fresh_of_find {sources : List Source} (h : find r packages w = (.ok sources, w'))
    (ht : ∀ content items, w.files.read r.library = .ok content →
      itemsOf r.library content = .ok items → ∀ item ∈ items, item.isTyped = true) :
    Fresh sources := by
  obtain ⟨hattributed, hfresh⟩ := attributed_of_find h fun items w₁ hitems => by
    obtain ⟨files, _, hfiles, hitems⟩ := Run.exists_of_bind hitems
    obtain ⟨content, _, hcontent, hitems⟩ := Run.exists_of_bind hitems
    obtain ⟨_, _, hof, hitems⟩ := Run.exists_of_bind hitems
    obtain ⟨_, _, -, hitems⟩ := Run.exists_of_bind hitems
    obtain ⟨rfl, rfl⟩ := Run.eq_of_pure hitems
    cases hfiles
    exact ht content _ (eq_ok_of_mapError (Run.eq_of_ofExcept hcontent).1)
      (Run.eq_of_ofExcept hof).1
  exact ⟨hattributed.named, hattributed.distinct, hfresh⟩

end Source
end BindGen

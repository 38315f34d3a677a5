import BindGen.Proofs.Run.Corresponds
import BindGen.Proofs.Run.Fold
import BindGen.Proofs.Value.Order
import BindGen.Source.Basic
import Mathlib.Data.List.Pairwise

/-!
# Inheritance among sources

What a source becomes when all sources of a run inherit is told by what the sources were before the
first of them inherited: by its own settings, and by those of the sources that it directly depends
on. Neither the order of the sources nor any other source has a part in it, also where sources
depend on each other in circles.
-/

namespace BindGen.Source

/-- Sources of different crates, none of which has inherited yet. -/
structure Fresh (sources : List Source) : Prop where
  named : ∀ s ∈ sources, ∃ name : String, s.crateName = .text name
  distinct : sources.Pairwise fun s t => s.crateName ≠ t.crateName
  inherited : ∀ s ∈ sources, s.settings.inherited = false

/-- The sources of other crates that a source directly depends on. -/
def dependencies (sources : List Source) (s : Source) : List Source :=
  sources.filter fun o => !o.crateName.same s.crateName && s.dependsOn o

/-- The name of the crate as a key. -/
def crateKey (s : Source) : Scalar := s.crateName.scalar?.getD .null

/-- What a source can inherit: the settings of the sources that it directly depends on, by crate. -/
def inheritance (sources : List Source) (s : Source) : Table Settings :=
  (dependencies sources s).map fun o => (o.crateKey, o.settings)

/-- What a source becomes on its own, while all others stay as they are. -/
def inheriting (sources : List Source) (s : Source) : Except SettingsError Source := do
  return { s with settings := ← s.settings.inherit (inheritance sources s) }

section Sources

variable {sources sources' : List Source}

private theorem same_iff_eq (h : Fresh sources) {s t : Source} (hs : s ∈ sources)
    (ht : t ∈ sources) : s.crateName.same t.crateName = true ↔ s.crateName = t.crateName := by
  obtain ⟨a, ha⟩ := h.named s hs
  obtain ⟨b, hb⟩ := h.named t ht
  rw [ha, hb, Value.same_scalar, Scalar.text_same_text, decide_eq_true_iff]
  constructor
  · rintro rfl
    rfl
  · intro hab
    cases hab
    rfl

private theorem Fresh.perm (h : Fresh sources) (hp : sources.Perm sources') : Fresh sources' where
  named s hs := h.named s (hp.mem_iff.mpr hs)
  distinct := hp.pairwise h.distinct fun hab => hab.symm
  inherited s hs := h.inherited s (hp.mem_iff.mpr hs)

/-- The dependencies of a source are the sources of other crates that it depends on. -/
theorem mem_dependencies {s o : Source} :
    o ∈ dependencies sources s ↔
      o ∈ sources ∧ o.crateName.same s.crateName = false ∧ s.dependsOn o = true := by
  simp [dependencies]

/-- What a source inherits from is the settings of its dependencies, each under its crate. -/
theorem mem_inheritance {s : Source} {e : Scalar × Settings} :
    e ∈ inheritance sources s ↔ ∃ o ∈ dependencies sources s, (o.crateKey, o.settings) = e :=
  List.mem_map

/-- A crate that is a text serves as the key. -/
theorem crateKey_of_named {s : Source} {name : String} (h : s.crateName = .text name) :
    s.crateKey = .text name := by
  rw [crateKey, h]
  rfl

/-- What a fresh source inherits from is keyed by texts. -/
theorem textKeyed_inheritance (h : Fresh sources) (s : Source) :
    Table.TextKeyed (inheritance sources s) := by
  intro e he
  obtain ⟨o, ho, rfl⟩ := mem_inheritance.mp he
  obtain ⟨name, hname⟩ := h.named o (mem_dependencies.mp ho).1
  exact ⟨name, crateKey_of_named hname⟩

/-- What a fresh source inherits from has no crate twice. -/
theorem distinct_inheritance (h : Fresh sources) (s : Source) :
    Table.Distinct (inheritance sources s) := by
  rw [Table.Distinct, inheritance, List.pairwise_map]
  refine (h.distinct.filter _).imp_of_mem fun {a b} ha hb hab => ?_
  obtain ⟨x, hx⟩ := h.named a (List.mem_filter.mp ha).1
  obtain ⟨y, hy⟩ := h.named b (List.mem_filter.mp hb).1
  rw [crateKey_of_named hx, crateKey_of_named hy, Scalar.text_same_text, decide_eq_false_iff_not]
  rintro rfl
  exact hab (hx.trans hy.symm)

-- The sources beside one of them that it depends on, picked by their places, are those picked by
-- their crates.
private theorem map_fst_filter_zipIdx (h : Fresh sources) {s : Source} {i : Nat}
    (hi : (s, i) ∈ sources.zipIdx) :
    (sources.zipIdx.filter fun e => e.2 != i && s.dependsOn e.1).map Prod.fst =
      dependencies sources s := by
  have hplace : ∀ e ∈ sources.zipIdx,
      (e.2 != i && s.dependsOn e.1) = (!e.1.crateName.same s.crateName && s.dependsOn e.1) := by
    rintro ⟨o, j⟩ ho
    have hs := List.mk_mem_zipIdx_iff_getElem?.mp hi
    have hj := List.mk_mem_zipIdx_iff_getElem?.mp ho
    have hsame : o.crateName.same s.crateName = true ↔ j = i := by
      rw [same_iff_eq h (List.mem_of_getElem? hj) (List.mem_of_getElem? hs)]
      constructor
      · intro hos
        by_contra hne
        obtain ⟨hjlt, hj⟩ := List.getElem?_eq_some_iff.mp hj
        obtain ⟨hilt, hs⟩ := List.getElem?_eq_some_iff.mp hs
        have hd := List.pairwise_iff_getElem.mp h.distinct
        rcases Nat.lt_or_gt_of_ne hne with hlt | hlt
        · exact hd j i hjlt hilt hlt (by rw [hj, hs, hos])
        · exact hd i j hilt hjlt hlt (by rw [hj, hs, hos])
      · rintro rfl
        rw [hs] at hj
        rw [Option.some.inj hj]
    have hne : (j != i) = !o.crateName.same s.crateName := by
      rw [Bool.eq_iff_iff, bne_iff_ne, Bool.not_eq_true', ← Bool.not_eq_true, hsame]
    rw [hne]
  rw [List.filter_congr hplace, dependencies]
  conv_rhs => rw [← List.zipIdx_map_fst 0 sources, List.filter_map]
  rfl

private theorem foldlM_put (others : List (Source × Nat)) (found : Table Settings)
    (hn : ∀ e ∈ others, ∃ name : String, e.1.crateName = .text name)
    (hd : Table.Distinct (found ++ others.map fun e => (e.1.crateKey, e.1.settings))) :
    others.foldlM (fun found e => do
        return Table.put found (← e.1.crateName.asKey) e.1.settings) found =
      (.ok (found ++ others.map fun e => (e.1.crateKey, e.1.settings)) :
        Except Fault (Table Settings)) := by
  induction others generalizing found with
  | nil =>
    rw [List.map_nil, List.append_nil]
    rfl
  | cons e rest ih =>
    obtain ⟨name, hname⟩ := hn e List.mem_cons_self
    have hkey : e.1.crateName.asKey = .ok e.1.crateKey := by
      rw [crateKey_of_named hname, hname]
      rfl
    have hnew : Table.find? found e.1.crateKey = none := by
      rw [Table.find?_eq_none_iff]
      intro x hx
      exact (List.pairwise_append.mp hd).2.2 x hx _ List.mem_cons_self
    have hput := Table.put_of_find?_none hnew e.1.settings
    rw [List.map_cons, List.append_cons] at hd ⊢
    rw [List.foldlM_cons, hkey, ← hput, ← ih _ (fun x hx => hn x (List.mem_cons_of_mem e hx))
      (by rwa [hput])]
    rfl

/-- The settings that a source can inherit are found whatever its place is. -/
theorem dependencySettings_eq_inheritance (h : Fresh sources) {s : Source} {i : Nat}
    (hi : (s, i) ∈ sources.zipIdx) :
    dependencySettings sources i s = .ok (inheritance sources s) := by
  have hmap : (sources.zipIdx.filter fun e => e.2 != i && s.dependsOn e.1).map
      (fun e => (e.1.crateKey, e.1.settings)) = inheritance sources s := by
    rw [inheritance, ← map_fst_filter_zipIdx h hi, List.map_map]
    rfl
  have hput := foldlM_put (sources.zipIdx.filter fun e => e.2 != i && s.dependsOn e.1) []
    (fun e he => by
      have hm := (List.mem_filter.mp he).1
      exact h.named e.1 (List.mem_of_getElem? (List.mk_mem_zipIdx_iff_getElem?.mp hm)))
    (by
      rw [List.nil_append, hmap]
      exact distinct_inheritance h s)
  rw [List.nil_append, hmap] at hput
  exact hput

/-- All sources inherit from what the sources were in the beginning. -/
theorem inheritAll_eq (h : Fresh sources) :
    inheritAll sources = sources.mapM (inheriting sources) := by
  have hplans : (sources.zipIdx.mapM fun e => do
      return (e.1, ← (dependencySettings sources e.2 e.1).mapError SettingsError.fault)) =
        .ok (sources.zipIdx.map fun e => (e.1, inheritance sources e.1)) := by
    have := mapM_map (g := fun e : Source × Nat => do
      return (e.1, ← (dependencySettings sources e.2 e.1).mapError SettingsError.fault)) (f := id)
      (r := fun e => (e.1, inheritance sources e.1)) (l := sources.zipIdx) (fun e he => by
        rw [id, dependencySettings_eq_inheritance h he]
        rfl)
    rwa [List.map_id] at this
  have hsplit : sources.zipIdx.map (fun e => (e.1, inheritance sources e.1)) =
      sources.map fun s => (s, inheritance sources s) := by
    have := congrArg (List.map fun s => (s, inheritance sources s)) (List.zipIdx_map_fst 0 sources)
    rwa [List.map_map] at this
  rw [inheritAll, hplans, ok_bind, hsplit, List.mapM_map]
  rfl

end Sources

section Outcome

variable {s s' d : Settings}

end Outcome

section Sources

variable {sources sources' : List Source}

end Sources

/-- A source of a crate whose package depends on others, with one shared key of its own. -/
def plainSource (crate : String) (dependencies : List String) : Source where
  package := ⟨crate, "0.0.0", ⟨"", [crate, "Cargo.toml"]⟩, dependencies.map (⟨·, .null⟩), []⟩
  crateName := crate
  interface := Interface.empty
  settings := ⟨none, [(.text crate, .text crate)], [], #[], [], false⟩

private def core : Source := plainSource "core" ["util"]
private def util : Source := plainSource "util" ["util", "core"]
private def app : Source := plainSource "app" ["core"]

end BindGen.Source

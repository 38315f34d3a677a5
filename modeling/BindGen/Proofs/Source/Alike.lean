import BindGen.Proofs.Interface.FoldGroups
import BindGen.Proofs.Interface.Surface
import BindGen.Proofs.Metadata.Grouping
import BindGen.Source.Basic

/-!
# Interfaces and sources that look alike

Interfaces look alike if nothing but the order in which they keep declarations tells them apart, and
so do sources.
-/

/-!
## The content of folded groups

The items that an interface holds tell its surface, and so its content and its checksum: nothing is
left of the order in which items were added.
-/

namespace BindGen.Interface

variable {i i' : Interface} {items : List Item}

/-- Interfaces of one name that hold the same items have one surface. -/
theorem Holds.sameSurface (h : i.Holds items) (h' : i'.Holds items)
    (hname : i.namespaceName = i'.namespaceName) (hcrate : i.crateName = i'.crateName) :
    SameSurface i i' where
  namespaceName := hname
  crateName := hcrate
  functions := h.functions.find?_eq h'.functions
  records := h.records.find?_eq h'.records
  enums := h.enums.find?_eq h'.enums
  callbackInterfaces := h.callbackInterfaces.find?_eq h'.callbackInterfaces
  customTypes := h.customTypes.find?_eq h'.customTypes
  objects name := by
    have hdeclaration := h.objects.find?_eq h'.objects name
    rw [Table.find?_mapValues, Table.find?_mapValues] at hdeclaration
    cases ho : Table.find? i.objects name with
    | none =>
      rw [ho, Option.map_none, eq_comm, Option.map_eq_none_iff] at hdeclaration
      rw [hdeclaration]
      exact .none
    | some o =>
      rw [ho, Option.map_some, eq_comm, Option.map_eq_some_iff] at hdeclaration
      obtain ⟨o', ho', hd⟩ := hdeclaration
      rw [ho']
      exact .some ⟨hd.symm, (h.constructors name o ho).find?_eq (h'.constructors name o' ho'),
        (h.methods name o ho).find?_eq (h'.methods name o' ho')⟩

/-- Folding groups of typed items leads to an interface that can be reached. -/
theorem Reachable.foldlM {gs : List Group} (h : Reachable i) (ht : ∀ g ∈ gs, g.isTyped = true)
    (hf : gs.foldlM Interface.fold i = .ok i') : Reachable i' := by
  induction gs generalizing i with
  | nil =>
    obtain rfl := Except.ok.inj hf
    exact h
  | cons g gs ih =>
    obtain ⟨next, hnext, hf⟩ := exists_of_bind_eq_ok hf
    refine ih ?_ (fun g hg => ht g (List.mem_cons_of_mem _ hg)) hf
    have hreached := h.addGroup (ht g List.mem_cons_self)
    rw [fold] at hnext
    split at hnext
    · next hadd =>
      obtain rfl := Except.ok.inj hnext
      rwa [hadd] at hreached
    · cases hnext

/-- Interfaces of one name, one content and one checksum. -/
structure Alike (i i' : Interface) : Prop where
  namespaceName : i.namespaceName = i'.namespaceName
  crateName : i.crateName = i'.crateName
  content : ∃ v, i.content = .ok v ∧ i'.content = .ok v
  checksum : ∃ s, i.checksum = .ok s ∧ i'.checksum = .ok s

variable {earlier : List Group} {g g' : Group}

/-- A group fits behind others in any order of its items. -/
theorem Foldable.rearranged (hg : g.Rearranged g') (h : Foldable (earlier ++ [g])) :
    Foldable (earlier ++ [g']) := by
  have he := h.of_append
  rw [foldable_snoc_iff he, fitsAll_inFoldOrder_iff] at h ⊢
  rw [← hg.declared]
  simp only [List.mem_append, ← hg.items.mem_iff] at h ⊢
  exact h

/-- Folding a group behind others does not depend on the order of its items. -/
theorem foldlM_rearranged (he : ∀ f ∈ earlier, f.isTyped = true) (hg : g.Rearranged g') :
    Corresponds Alike ((earlier ++ [g]).foldlM Interface.fold empty)
      ((earlier ++ [g']).foldlM Interface.fold empty) := by
  have ht : ∀ f ∈ earlier ++ [g], f.isTyped = true := by
    simpa [or_imp, forall_and] using ⟨he, hg.typed⟩
  have ht' : ∀ f ∈ earlier ++ [g'], f.isTyped = true := by
    simpa [or_imp, forall_and] using ⟨he, hg.symm.typed⟩
  obtain ⟨hok, hfolded⟩ := foldlM_folded ht
  obtain ⟨hok', hfolded'⟩ := foldlM_folded ht'
  have hiff : Foldable (earlier ++ [g]) ↔ Foldable (earlier ++ [g']) :=
    ⟨fun h => h.rearranged hg, fun h => h.rearranged hg.symm⟩
  refine .of_iff (hok.trans (hiff.trans hok'.symm)) fun i i' hi hi' => ?_
  have h := hfolded i hi
  have h' := hfolded' i' hi'
  have hperm :
      ((earlier ++ [g']).flatMap Group.items).Perm ((earlier ++ [g]).flatMap Group.items) := by
    rw [flatMap_items_snoc, flatMap_items_snoc]
    exact hg.items.symm.append_left _
  have hnames : i.namespaceName = i'.namespaceName ∧ i.crateName = i'.crateName := by
    have hn := h.names
    have hn' := h'.names
    cases earlier with
    | nil =>
      rw [hn.1, hn.2, hn'.1, hn'.2, hg.declared]
      exact ⟨rfl, rfl⟩
    | cons f fs =>
      rw [hn.1, hn.2, hn'.1, hn'.2]
      exact ⟨rfl, rfl⟩
  have hw := (Reachable.empty.foldlM ht hi).wellFiled
  have hw' := (Reachable.empty.foldlM ht' hi').wellFiled
  have hs := h.holds.sameSurface (h'.holds.of_declares_perm (hperm.filter declares)) hnames.1
    hnames.2
  have hview := hw.view_eq hw' hs
  exact ⟨hnames.1, hnames.2, ⟨i.view, hw.content_eq_view, hview ▸ hw'.content_eq_view⟩,
    ⟨_, hw.checksum_eq, hview ▸ hw'.checksum_eq⟩⟩

end BindGen.Interface

/-!
## Sources that look alike

Sources look alike if nothing but the order in which their interfaces keep declarations tells them
apart. Which sources depend on each other, what they inherit and which of them are selected is told
by their packages, crates and settings, so lists of sources that look alike inherit and are selected
alike.
-/

namespace BindGen.Source

/-- Sources with the same package, crate and settings whose interfaces look alike. -/
structure Alike (s s' : Source) : Prop where
  package : s.package = s'.package
  crateName : s.crateName = s'.crateName
  interface : Interface.Alike s.interface s'.interface
  settings : s.settings = s'.settings

-- Related lists are folded alike by steps that agree on related items.
private theorem foldlM_eq {σ α β ε : Type} {P : α → β → Prop} {xs : List α} {ys : List β}
    (h : List.Forall₂ P xs ys) {f : σ → α → Except ε σ} {g : σ → β → Except ε σ}
    (hf : ∀ s a b, P a b → f s a = g s b) (s : σ) : xs.foldlM f s = ys.foldlM g s := by
  induction h generalizing s with
  | nil => rfl
  | cons hab _ ih =>
    rw [List.foldlM_cons, List.foldlM_cons, hf s _ _ hab]
    congr 1
    funext s'
    exact ih s'

private theorem zipIdx_forall₂ {α β : Type} {P : α → β → Prop} {xs : List α} {ys : List β}
    (h : List.Forall₂ P xs ys) (n : Nat) :
    List.Forall₂ (fun a b => P a.1 b.1 ∧ a.2 = b.2) (xs.zipIdx n) (ys.zipIdx n) := by
  induction h generalizing n with
  | nil => exact .nil
  | cons hab _ ih =>
    rw [List.zipIdx_cons, List.zipIdx_cons]
    exact .cons ⟨hab, rfl⟩ (ih (n + 1))

section Inherit

variable {sources sources' : List Source} (h : List.Forall₂ Alike sources sources')
include h

private theorem dependencySettings_eq {s s' : Source} (hs : Alike s s') (i : Nat) :
    dependencySettings sources i s = dependencySettings sources' i s' := by
  have hdepends {o o' : Source} (ho : Alike o o') : s.dependsOn o = s'.dependsOn o' := by
    rw [dependsOn, dependsOn, hs.package, ho.package, ho.crateName]
  rw [dependencySettings, dependencySettings]
  refine foldlM_eq (P := fun a b => Alike a.1 b.1 ∧ a.2 = b.2) ?_ ?_ []
  · refine List.rel_filter ?_ (zipIdx_forall₂ h 0)
    rintro ⟨o, n⟩ ⟨o', n'⟩ ⟨ho, rfl⟩
    simp [hdepends ho]
  · rintro found ⟨o, n⟩ ⟨o', n'⟩ ⟨ho, -⟩
    dsimp only
    rw [ho.crateName, ho.settings]

/-- Sources that look alike inherit alike. -/
theorem inheritAll_alike :
    Corresponds (List.Forall₂ Alike) (inheritAll sources) (inheritAll sources') := by
  rw [inheritAll, inheritAll]
  refine Corresponds.bind (R := List.Forall₂ fun a b => Alike a.1 b.1 ∧ a.2 = b.2)
    (.mapM (zipIdx_forall₂ h 0) ?_) fun plans plans' hp => .mapM hp ?_
  · rintro ⟨s, i⟩ ⟨s', i'⟩ ⟨hs, rfl⟩
    dsimp only
    rw [dependencySettings_eq h hs i]
    exact (Corresponds.refl (fun _ => rfl) _).bind fun plan plan' hp => .ok ⟨hs, hp⟩
  · rintro ⟨s, plan⟩ ⟨s', plan'⟩ ⟨hs, rfl⟩
    dsimp only
    rw [hs.settings]
    refine (Corresponds.refl (R := Eq) (fun _ => rfl) _).bind ?_
    rintro settings settings' rfl
    exact .ok ⟨hs.package, hs.crateName, hs.interface, rfl⟩

/-- Sources that look alike are selected alike. -/
theorem select_alike (crate library : Option String) :
    Corresponds (List.Forall₂ Alike) (select sources crate library)
      (select sources' crate library) := by
  cases crate with
  | none => exact .ok h
  | some crate =>
    have hf : List.Forall₂ Alike (sources.filter fun s => s.crateName.same (.text crate))
        (sources'.filter fun s => s.crateName.same (.text crate)) := by
      refine List.rel_filter (fun s s' hs => ?_) h
      change s.crateName.same _ = true ↔ s'.crateName.same _ = true
      rw [hs.crateName]
    rw [select, select]
    generalize sources.filter (fun s => s.crateName.same (.text crate)) = l at hf
    generalize sources'.filter (fun s => s.crateName.same (.text crate)) = l' at hf
    cases hf with
    | nil => exact .error _ _
    | cons hs ht =>
      cases ht with
      | nil => exact .ok (.cons hs .nil)
      | cons _ _ => exact .error _ _

end Inherit

end BindGen.Source

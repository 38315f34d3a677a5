import BindGen.Proofs.Interface.Surface
import BindGen.Proofs.Template.Members
import BindGen.Proofs.Value.Order

/-!
# What folding leaves in the order of members

Templates list the members of an object in the order of their names and disregard case. Members
whose names differ in case only stay in the order in which they were folded: this order is the one
trace that folding leaves.
-/

namespace BindGen

namespace Table

open Outline (foldCase)

variable {α : Type}

/-- Names that differ in case only come in one order in both tables. -/
def TiedAlike (t t' : Table α) : Prop :=
  ∀ name : Scalar, (keys t).filter (foldCase · = name) = (keys t').filter (foldCase · = name)

-- Entries of tables with the same look-ups have the same values if they have the same keys.
private theorem map_snd_eq_of_map_fst {t t' l l' : Table α} (hf : ∀ key, find? t key = find? t' key)
    (h : ∀ e ∈ l, find? t e.1 = some e.2) (h' : ∀ e ∈ l', find? t' e.1 = some e.2)
    (hk : l.map Prod.fst = l'.map Prod.fst) : l.map Prod.snd = l'.map Prod.snd := by
  have hvalues {t l : Table α} (h : ∀ e ∈ l, find? t e.1 = some e.2) :
      (l.map Prod.snd).map some = (l.map Prod.fst).map (find? t) := by
    rw [List.map_map, List.map_map]
    exact List.map_congr_left fun e he => (h e he).symm
  have hsame : find? t = find? t' := funext hf
  refine List.map_injective_iff.mpr (Option.some_injective α) ?_
  rw [hvalues h, hvalues h', hk, hsame]

namespace Filed

variable [Declaration α] [TypedDeclaration α] {t t' : Table α}

-- The name by which templates sort a member.
private abbrev foldedName (d : α) : Scalar :=
  foldCase ((TypedDeclaration.name d).scalar?.getD .null)

/-- Two members of one name, up to case, which are one member if they have one name. -/
def Tied (d d' : α) : Prop :=
  ∃ name name' : String,
    TypedDeclaration.name d = .text name ∧ TypedDeclaration.name d' = .text name' ∧
      Text.lower name.toList = Text.lower name'.toList ∧ (name = name' → d = d')

private theorem foldedName_of_mem (h : Filed t) {e : Scalar × α} (he : e ∈ t) :
    foldedName e.2 = foldCase e.1 := by
  rw [foldedName, h.named e he]
  rfl

private theorem isWord_foldedName (h : Filed t) :
    ∀ d ∈ values t, (foldedName d).IsWord := by
  intro d hd
  obtain ⟨e, he, rfl⟩ := List.mem_map.mp hd
  obtain ⟨s, hs⟩ := h.textKeyed e he
  rw [h.foldedName_of_mem he, hs]
  exact Scalar.isWord_text _

private theorem filter_values (h : Filed t) (name : Scalar) :
    (values t).filter (foldedName · = name) =
      (t.filter fun e => foldCase e.1 = name).map Prod.snd := by
  rw [values, List.filter_map]
  refine congrArg _ (List.filter_congr fun e he => ?_)
  rw [Function.comp_apply, h.foldedName_of_mem he]

-- Entries of one folded name have the same declarations exactly if they have the same keys.
private theorem map_snd_eq_iff (h : Filed t) (h' : Filed t')
    (hf : ∀ key, find? t key = find? t' key) (p : Scalar × α → Bool) :
    (t.filter p).map Prod.snd = (t'.filter p).map Prod.snd ↔
      (t.filter p).map Prod.fst = (t'.filter p).map Prod.fst := by
  have hname {t : Table α} (h : Filed t) : (t.filter p).map Prod.fst =
      ((t.filter p).map Prod.snd).map fun d => (TypedDeclaration.name d).scalar?.getD .null := by
    rw [List.map_map]
    refine List.map_congr_left fun e he => ?_
    rw [Function.comp_apply, h.named e (List.mem_filter.mp he).1]
    rfl
  have hfound {t : Table α} (h : Filed t) : ∀ e ∈ t.filter p, find? t e.1 = some e.2 := fun e he =>
    find?_of_mem h.distinct (List.mem_filter.mp he).1 (Scalar.same_refl _)
  constructor
  · intro hv
    rw [hname h, hname h', hv]
  · exact map_snd_eq_of_map_fst hf (hfound h) (hfound h')

/-- The members of a table can be listed. -/
theorem exists_membersInOrder (h : Filed t) :
    ∃ ds, Outline.membersInOrder TypedDeclaration.name t = .ok ds ∧ ds.Perm (values t) :=
  ⟨_, sortByKey_of_words h.isWord_foldedName, sortOn_perm h.isWord_foldedName⟩

/-- The members of tables with the same look-ups are listed in the same order, except for ties. -/
theorem forall₂_tied (h : Filed t) (h' : Filed t') (hf : ∀ key, find? t key = find? t' key)
    {ds ds' : List α} (hds : Outline.membersInOrder TypedDeclaration.name t = .ok ds)
    (hds' : Outline.membersInOrder TypedDeclaration.name t' = .ok ds') :
    List.Forall₂ Tied ds ds' := by
  rw [Outline.membersInOrder, sortByKey_of_words h.isWord_foldedName, Except.ok.injEq] at hds
  rw [Outline.membersInOrder, sortByKey_of_words h'.isWord_foldedName, Except.ok.injEq] at hds'
  have hperm : (values t).Perm (values t') :=
    (perm_of_find? h.distinct h'.distinct h.textKeyed.worded h'.textKeyed.worded hf).map Prod.snd
  have hfolded : ds.map foldedName = ds'.map foldedName := by
    rw [← hds, ← hds']
    exact map_sortOn_eq_of_perm h.isWord_foldedName hperm
  have hnamed {t : Table α} (h : Filed t) {d : α}
      (hd : d ∈ sortOn foldedName (values t)) :
      ∃ name : String, TypedDeclaration.name d = .text name ∧ find? t name = some d := by
    obtain ⟨⟨key, d⟩, he, rfl⟩ :=
      List.mem_map.mp ((mem_sortOn h.isWord_foldedName).mp hd)
    obtain ⟨name, rfl : key = .text name⟩ := h.textKeyed _ he
    exact ⟨name, h.named _ he, find?_of_mem h.distinct he (Scalar.same_refl _)⟩
  rw [← List.forall₂_eq_eq_eq, List.forall₂_map_left_iff, List.forall₂_map_right_iff] at hfolded
  refine List.forall₂_iff_zip.mpr ⟨hfolded.length_eq, fun {d d'} hmem => ?_⟩
  have hsame := List.forall₂_zip hfolded hmem
  obtain ⟨hd, hd'⟩ := List.of_mem_zip hmem
  obtain ⟨name, hname, hfound⟩ := hnamed h (hds ▸ hd)
  obtain ⟨name', hname', hfound'⟩ := hnamed h' (hds' ▸ hd')
  refine ⟨name, name', hname, hname', ?_, ?_⟩
  · rw [foldedName, foldedName, hname, hname'] at hsame
    exact String.ofList_injective (Scalar.text.inj hsame)
  · rintro rfl
    rw [hf, hfound'] at hfound
    exact (Option.some.inj hfound).symm

/-- Templates list the members of two tables alike exactly if ties are alike. -/
theorem membersInOrder_eq_iff (h : Filed t) (h' : Filed t')
    (hf : ∀ key, find? t key = find? t' key) :
    Outline.membersInOrder TypedDeclaration.name t =
      Outline.membersInOrder TypedDeclaration.name t' ↔ TiedAlike t t' := by
  rw [Outline.membersInOrder, Outline.membersInOrder, sortByKey_of_words h.isWord_foldedName,
    sortByKey_of_words h'.isWord_foldedName, Except.ok.injEq,
    sortOn_eq_iff h.isWord_foldedName h'.isWord_foldedName]
  refine forall_congr' fun name => ?_
  change (values t).filter (foldedName · = name) = (values t').filter (foldedName · = name) ↔ _
  rw [h.filter_values, h'.filter_values, h.map_snd_eq_iff h' hf, keys, keys, List.filter_map,
    List.filter_map]
  rfl

end Filed
end Table

namespace ObjectDefinition

variable {o o' : ObjectDefinition}

/-- Objects of one surface are shown alike if their members are listed alike. -/
theorem SameSurface.shownAlike (hs : o.SameSurface o') (h : o.WellFiled) (h' : o'.WellFiled)
    (hc : Outline.constructorsOf o = Outline.constructorsOf o')
    (hm : Outline.methodsOf o = Outline.methodsOf o') : o.ShownAlike o' := by
  have hperm := Table.perm_of_find? h.constructors.distinct h'.constructors.distinct
    h.constructors.textKeyed.worded h'.constructors.textKeyed.worded hs.constructors
  exact ⟨hs.declaration, hc, hm, hperm.isEmpty_eq⟩

/-- Objects of one surface are shown alike exactly if ties among their members are alike. -/
theorem SameSurface.shownAlike_iff (hs : o.SameSurface o') (h : o.WellFiled) (h' : o'.WellFiled) :
    o.ShownAlike o' ↔
      o.constructors.TiedAlike o'.constructors ∧ o.methods.TiedAlike o'.methods := by
  rw [← h.constructors.membersInOrder_eq_iff h'.constructors hs.constructors,
    ← h.methods.membersInOrder_eq_iff h'.methods hs.methods]
  exact ⟨fun hshown => ⟨hshown.constructors, hshown.methods⟩,
    fun ⟨hc, hm⟩ => hs.shownAlike h h' hc hm⟩

end ObjectDefinition

namespace Interface

variable {i i' : Interface}

/-- In both interfaces, members of one object whose names differ in case only were folded in one
order. -/
def TiedAlike (i i' : Interface) : Prop :=
  ∀ name o o', Table.find? i.objects name = some o → Table.find? i'.objects name = some o' →
    o.constructors.TiedAlike o'.constructors ∧ o.methods.TiedAlike o'.methods

-- Interfaces of one surface list objects of the same names.
private theorem keys_objects_eq (hs : i.SameSurface i') (h : i.WellFiled) (h' : i'.WellFiled) :
    Table.keys (sortOn Prod.fst i.objects) = Table.keys (sortOn Prod.fst i'.objects) := by
  refine Table.keys_sortOn_eq h.objects.distinct h'.objects.distinct h.objects.textKeyed.worded
    h'.objects.textKeyed.worded fun name => ?_
  have hsame := hs.objects name
  rw [Table.has, Table.has]
  generalize Table.find? i.objects name = o, Table.find? i'.objects name = o' at hsame
  cases hsame <;> rfl

/-- What is true of the objects of each name is true of the lists of objects. -/
theorem SameSurface.forall₂_objects_iff (hs : i.SameSurface i') (h : i.WellFiled)
    (h' : i'.WellFiled) {R : ObjectDefinition → ObjectDefinition → Prop} :
    List.Forall₂ R (Table.values (sortOn Prod.fst i.objects))
      (Table.values (sortOn Prod.fst i'.objects)) ↔
      ∀ name o o', Table.find? i.objects name = some o → Table.find? i'.objects name = some o' →
        R o o' := by
  have hp := sortOn_perm h.objects.textKeyed.worded
  have hp' := sortOn_perm h'.objects.textKeyed.worded
  have hd := h.objects.distinct.perm hp.symm
  have hd' := h'.objects.distinct.perm hp'.symm
  rw [Table.forall₂_values_iff hd hd' (keys_objects_eq hs h h')]
  simp only [Table.find?_perm hd hp, Table.find?_perm hd' hp']

/-- The objects of one name in interfaces of one surface. -/
theorem SameSurface.sameSurface_of_find? (hs : i.SameSurface i') {name : Scalar}
    {o o' : ObjectDefinition} (ho : Table.find? i.objects name = some o)
    (ho' : Table.find? i'.objects name = some o') : o.SameSurface o' := by
  have hsame := hs.objects name
  rwa [ho, ho', Option.rel_some_some] at hsame

/-- Interfaces of one surface list objects that are shown alike exactly if ties are alike. -/
theorem SameSurface.forall₂_shownAlike_iff (hs : i.SameSurface i') (h : i.WellFiled)
    (h' : i'.WellFiled) :
    List.Forall₂ ObjectDefinition.ShownAlike (Table.values (sortOn Prod.fst i.objects))
      (Table.values (sortOn Prod.fst i'.objects)) ↔ i.TiedAlike i' := by
  rw [hs.forall₂_objects_iff h h']
  refine forall₄_congr fun name o o' ho => forall_congr' fun ho' => ?_
  exact (hs.sameSurface_of_find? ho ho').shownAlike_iff (h.objects.wellFiled_of_find? ho)
    (h'.objects.wellFiled_of_find? ho')

end Interface

end BindGen

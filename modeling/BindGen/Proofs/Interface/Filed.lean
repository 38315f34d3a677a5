import BindGen.Interface.Basic
import BindGen.Proofs.Metadata.Typed
import BindGen.Proofs.Run.Fold

/-!
# Interfaces of typed groups

However groups of typed items are folded, and also if one of them does not fit, the interface
reached files typed declarations under their names: the keys of its tables are texts, no two of them
are the same, and each entry declares its own key.
-/

namespace BindGen

namespace Table

variable {α : Type}

/-- Writing a text as a key gives an entry with this key and leaves the others as they are. -/
theorem eq_or_mem_of_mem_put {t : Table α} (hk : t.TextKeyed) {s : String} {v : α}
    {e : Scalar × α} (h : e ∈ put t (.text s) v) : e = (.text s, v) ∨ e ∈ t := by
  induction t with
  | nil => exact .inl (List.mem_singleton.mp h)
  | cons x rest ih =>
    rw [put] at h
    split at h
    · next hsame =>
      rcases List.mem_cons.mp h with rfl | h
      · exact .inl (by rw [Scalar.eq_text_of_same hsame])
      · exact .inr (List.mem_cons_of_mem x h)
    · rcases List.mem_cons.mp h with rfl | h
      · exact .inr List.mem_cons_self
      · exact (ih (fun y hy => hk y (List.mem_cons_of_mem x hy)) h).imp_right
          (List.mem_cons_of_mem x)

variable [Declaration α] [TypedDeclaration α]

/-- A table files typed declarations under their names. -/
structure Filed (t : Table α) : Prop where
  distinct : t.Distinct
  typed : ∀ e ∈ t, TypedDeclaration.isTyped e.2 = true
  named : ∀ e ∈ t, TypedDeclaration.name e.2 = .scalar e.1

namespace Filed

variable {t : Table α} {d : α}

private theorem nil : Filed ([] : Table α) := ⟨distinct_nil, nofun, nofun⟩

/-- A table that files its declarations has texts as its keys. -/
theorem textKeyed (h : Filed t) : t.TextKeyed := by
  intro e he
  have hname := TypedDeclaration.isText_name (h.typed e he)
  rw [h.named e he] at hname
  obtain ⟨s, hs⟩ := Value.isText_iff.mp hname
  exact ⟨s, Value.scalar.inj hs⟩

/-- What a filing table holds is typed. -/
theorem typed_of_find? (h : Filed t) {key : Scalar} (hf : find? t key = some d) :
    TypedDeclaration.isTyped d = true := by
  obtain ⟨k, hm, -⟩ := mem_of_find? hf
  exact h.typed (k, d) hm

private theorem put (h : Filed t) (ht : TypedDeclaration.isTyped d = true) {s : String}
    (hs : TypedDeclaration.name d = .text s) : Filed (t.put (.text s) d) where
  distinct := distinct_put h.distinct _ _
  typed e he := by
    obtain rfl | he := eq_or_mem_of_mem_put h.textKeyed he
    · exact ht
    · exact h.typed e he
  named e he := by
    obtain rfl | he := eq_or_mem_of_mem_put h.textKeyed he
    · exact hs
    · exact h.named e he

end Filed

end Table

namespace Declaration

variable {α : Type} [Declaration α]

/-- Declarations merge into one of them. -/
theorem eq_or_eq_of_merge? {a b m : α} (h : merge? a b = some m) : m = a ∨ m = b := by
  rw [merge?] at h
  split at h
  · exact .inl (Option.some.inj h).symm
  · split at h
    · exact .inr (Option.some.inj h).symm
    · split at h
      · exact .inl (Option.some.inj h).symm
      · cases h

end Declaration

namespace Interface

open Table

variable {i i' : Interface}

-- What is declared under the name of a declaration is that one or an earlier one of the name.
private theorem filed_declare {α : Type} [Declaration α] [TypedDeclaration α] {t t' : Table α}
    {d : α} {label : String} (h : Filed t) (ht : TypedDeclaration.isTyped d = true)
    (hd : declare t (TypedDeclaration.name d) d label = .ok t') : Filed t' := by
  obtain ⟨s, hs⟩ := Value.isText_iff.mp (TypedDeclaration.isText_name ht)
  rw [declare, hs] at hd
  obtain ⟨key, hkey, hd⟩ := exists_of_bind_eq_ok hd
  obtain rfl : Scalar.text s = key := Except.ok.inj hkey
  split at hd
  · obtain rfl := Except.ok.inj hd
    exact h.put ht hs
  · next existing hf =>
    split at hd
    · next merged hm =>
      obtain rfl := Except.ok.inj hd
      obtain rfl | rfl := Declaration.eq_or_eq_of_merge? hm
      · obtain ⟨k, hmem, hsame⟩ := mem_of_find? hf
        rw [Scalar.eq_text_of_same hsame] at hmem
        exact h.put (h.typed _ hmem) (h.named _ hmem)
      · exact h.put ht hs
    · cases hd

/-- A table files typed objects, with typed members, under their names. -/
structure FiledObjects (t : Table ObjectDefinition) : Prop where
  declarations : Filed (mapValues ObjectDefinition.declaration t)
  constructors : ∀ e ∈ t, Filed e.2.constructors
  methods : ∀ e ∈ t, Filed e.2.methods

namespace FiledObjects

variable {t t' : Table ObjectDefinition} {o : ObjectDefinition}

private theorem nil : FiledObjects [] := ⟨.nil, nofun, nofun⟩

/-- A table that files objects has no key twice. -/
theorem distinct (h : FiledObjects t) : t.Distinct := List.pairwise_map.mp h.declarations.distinct

/-- A table that files objects has texts as its keys. -/
theorem textKeyed (h : FiledObjects t) : t.TextKeyed := fun e he =>
  h.declarations.textKeyed (e.1, e.2.declaration) (List.mem_map_of_mem he)

private theorem put (h : FiledObjects t) {s : String}
    (ht : TypedDeclaration.isTyped o.declaration = true) (hs : o.declaration.name = .text s)
    (hc : Filed o.constructors) (hm : Filed o.methods) : FiledObjects (t.put (.text s) o) where
  declarations := by
    rw [mapValues_put]
    exact h.declarations.put ht hs
  constructors e he := by
    obtain rfl | he := eq_or_mem_of_mem_put h.textKeyed he
    · exact hc
    · exact h.constructors e he
  methods e he := by
    obtain rfl | he := eq_or_mem_of_mem_put h.textKeyed he
    · exact hm
    · exact h.methods e he

-- The members of an object that is filed may be replaced by others that are filed.
private theorem replace (h : FiledObjects t) {s : String} (hmem : (Scalar.text s, o) ∈ t)
    {cs : Table ConstructorDecl} (hc : Filed cs) {ms : Table MethodDecl} (hm : Filed ms) :
    FiledObjects (t.put (.text s) ⟨o.declaration, cs, ms⟩) := by
  have hentry : (Scalar.text s, o.declaration) ∈ mapValues ObjectDefinition.declaration t :=
    List.mem_map_of_mem hmem
  exact h.put (h.declarations.typed _ hentry) (h.declarations.named _ hentry) hc hm

private theorem declareObject {d : ObjectDecl} (h : FiledObjects t)
    (ht : TypedDeclaration.isTyped d = true) (hd : Interface.declareObject t d = .ok t') :
    FiledObjects t' := by
  obtain ⟨s, hs⟩ := Value.isText_iff.mp (TypedDeclaration.isText_name ht)
  change d.name = .text s at hs
  rw [Interface.declareObject, hs] at hd
  obtain ⟨key, hkey, hd⟩ := exists_of_bind_eq_ok hd
  obtain rfl : Scalar.text s = key := Except.ok.inj hkey
  split at hd
  · obtain rfl := Except.ok.inj hd
    exact h.put ht hs .nil .nil
  · next existing hf =>
    split at hd
    · next merged hm =>
      obtain rfl := Except.ok.inj hd
      obtain ⟨k, hmem, hsame⟩ := mem_of_find? hf
      rw [Scalar.eq_text_of_same hsame] at hmem
      obtain rfl | rfl := Declaration.eq_or_eq_of_merge? hm
      · exact h.replace hmem (h.constructors _ hmem) (h.methods _ hmem)
      · exact h.put ht hs (h.constructors _ hmem) (h.methods _ hmem)
    · cases hd

end FiledObjects

/-- An interface whose names are texts, if it has any, and whose tables file typed declarations. -/
structure WellFiled (i : Interface) : Prop where
  namespaceName : i.namespaceName.isOptionalText = true
  crateName : i.crateName.isOptionalText = true
  functions : Filed i.functions
  objects : FiledObjects i.objects
  records : Filed i.records
  enums : Filed i.enums
  callbackInterfaces : Filed i.callbackInterfaces
  customTypes : Filed i.customTypes

/-- The interfaces that folding groups of typed items reaches, group by group, whether they fit or
not. -/
inductive Reachable : Interface → Prop where
  | empty : Reachable empty
  | addGroup {i : Interface} {g : Group} :
      Reachable i → g.isTyped = true → Reachable (i.addGroup g).1

namespace WellFiled

private theorem empty : WellFiled empty := ⟨rfl, rfl, .nil, .nil, .nil, .nil, .nil, .nil⟩

private theorem exists_of_owner {selfName : Value} {member : String} {key : Scalar}
    {o : ObjectDefinition} (h : i.WellFiled) (ho : i.owner selfName member = .ok (key, o)) :
    ∃ s : String, key = .text s ∧ (Scalar.text s, o) ∈ i.objects := by
  obtain ⟨key', -, ho⟩ := exists_of_bind_eq_ok ho
  split at ho
  · next o' hf =>
    obtain ⟨rfl, rfl⟩ := Prod.mk.inj (Except.ok.inj ho)
    obtain ⟨k, hmem, hsame⟩ := mem_of_find? hf
    obtain ⟨s, hs⟩ := h.objects.textKeyed _ hmem
    change k = .text s at hs
    subst hs
    exact ⟨s, Scalar.eq_text_of_same (Scalar.same_symm hsame), hmem⟩
  · cases ho

private theorem addItem {item : Item} (h : i.WellFiled) (ht : item.isTyped = true)
    (hi : i.addItem item = .ok i') : i'.WellFiled := by
  cases item with
  | namespaceDecl d =>
    obtain rfl := Except.ok.inj hi
    exact h
  | udlFile d =>
    obtain rfl := Except.ok.inj hi
    exact h
  | function d =>
    obtain ⟨t, hd, rfl⟩ := exists_of_map_eq_ok hi
    exact { h with functions := filed_declare h.functions ht hd }
  | record d =>
    obtain ⟨t, hd, rfl⟩ := exists_of_map_eq_ok hi
    exact { h with records := filed_declare h.records ht hd }
  | enum d =>
    obtain ⟨t, hd, rfl⟩ := exists_of_map_eq_ok hi
    exact { h with enums := filed_declare h.enums ht hd }
  | callbackInterface d =>
    obtain ⟨t, hd, rfl⟩ := exists_of_map_eq_ok hi
    exact { h with callbackInterfaces := filed_declare h.callbackInterfaces ht hd }
  | customType d =>
    obtain ⟨t, hd, rfl⟩ := exists_of_map_eq_ok hi
    exact { h with customTypes := filed_declare h.customTypes ht hd }
  | object d =>
    obtain ⟨t, hd, rfl⟩ := exists_of_map_eq_ok hi
    exact { h with objects := h.objects.declareObject ht hd }
  | constructor d =>
    obtain ⟨⟨key, o⟩, ho, hi⟩ := exists_of_bind_eq_ok hi
    obtain ⟨t, hd, rfl⟩ := exists_of_map_eq_ok hi
    obtain ⟨s, rfl, hmem⟩ := h.exists_of_owner ho
    have hconstructors := filed_declare (h.objects.constructors _ hmem) ht hd
    exact { h with objects := h.objects.replace hmem hconstructors (h.objects.methods _ hmem) }
  | method d =>
    obtain ⟨⟨key, o⟩, ho, hi⟩ := exists_of_bind_eq_ok hi
    obtain ⟨t, hd, rfl⟩ := exists_of_map_eq_ok hi
    obtain ⟨s, rfl, hmem⟩ := h.exists_of_owner ho
    have hmethods := filed_declare (h.objects.methods _ hmem) ht hd
    exact { h with objects := h.objects.replace hmem (h.objects.constructors _ hmem) hmethods }

private theorem addItems {items : List Item} (h : i.WellFiled)
    (ht : ∀ item ∈ items, item.isTyped = true) : (i.addItems items).1.WellFiled := by
  induction items generalizing i with
  | nil => exact h
  | cons item items ih =>
    rw [Interface.addItems]
    split
    · next next hi =>
      exact ih (h.addItem (ht item List.mem_cons_self) hi) fun a ha =>
        ht a (List.mem_cons_of_mem item ha)
    · exact h

private theorem addGroup {g : Group} (h : i.WellFiled) (hg : g.isTyped = true) :
    (i.addGroup g).1.WellFiled := by
  obtain ⟨hd, hitems⟩ := Group.isTyped_iff.mp hg
  rw [Interface.addGroup]
  split
  · next named hn =>
    refine addItems ?_ fun item hi => ?_
    · rw [setNamespace] at hn
      rw [NamespaceDecl.isTyped, Bool.and_eq_true] at hd
      split at hn
      · obtain rfl := Except.ok.inj hn
        exact { h with
          namespaceName := Value.isOptionalText_of_isText hd.2
          crateName := Value.isOptionalText_of_isText hd.1 }
      · split at hn
        · obtain rfl := Except.ok.inj hn
          exact h
        · cases hn
    · obtain ⟨kind, -, hi⟩ := List.mem_flatMap.mp hi
      exact hitems item (List.mem_filter.mp hi).1
  · exact h

end WellFiled

/-- What folding reaches is well filed. -/
theorem Reachable.wellFiled (h : Reachable i) : i.WellFiled := by
  induction h with
  | empty => exact .empty
  | addGroup _ hg ih => exact ih.addGroup hg

end Interface

end BindGen

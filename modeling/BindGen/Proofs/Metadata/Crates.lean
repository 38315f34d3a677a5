import BindGen.Proofs.Metadata.Grouping
import BindGen.Proofs.Metadata.Wire
import BindGen.Proofs.Value.Comparable
import BindGen.Proofs.Value.Parts

/-!
# Items whose crates cannot be told

The scalar fields of an item hold whatever its payload had, and grouping takes them for what they
should be. A module path that is no text cannot be split, a crate name with parts cannot be a key,
and crate names of several classes cannot be sorted. These faults are the only ones of grouping, and
none of them is reported as an error of grouping.
-/

namespace BindGen

namespace Item

/-- The key of the crate that an item belongs to. -/
def crateKey (item : Item) : Except Fault Scalar := do (← item.crateName).asKey

/-- Whether it can be told which crate an item belongs to: a namespace names its crate by a scalar,
any other item has a text for its module path. -/
def HasCrate : Item → Prop
  | namespaceDecl d => ∃ crate, d.crateName = .scalar crate
  | item => ∃ path : LooseText, item.modulePath? = some path.value

/-- The fault of an item whose crate cannot be told. -/
def crateFault : Item → Fault
  | namespaceDecl d => .notHashable d.crateName.typeName
  | item => .noOperation (item.modulePath?.getD .null).typeName "split"

variable {item : Item} {path : Value} {f : Fault}

/-- Items other than namespaces have module paths. -/
theorem namespaceDecl_or_modulePath? (item : Item) :
    (∃ d, item = namespaceDecl d) ∨ ∃ path, item.modulePath? = some path := by
  cases item with
  | namespaceDecl d => exact .inl ⟨d, rfl⟩
  | _ => exact .inr ⟨_, rfl⟩

private theorem crateName_of_modulePath? (h : item.modulePath? = some path) :
    item.crateName = crateOfPath path := by
  cases item <;> cases h <;> rfl

private theorem crateKey_of_modulePath? (h : item.modulePath? = some path) : item.crateKey = (do
    return (crateOfText (← path.asText "split")).scalar) := by
  rw [crateKey, crateName_of_modulePath? h]
  exact bind_assoc _ _ _

private theorem hasCrate_iff_of_modulePath? (h : item.modulePath? = some path) :
    item.HasCrate ↔ ∃ t : LooseText, path = t.value := by
  cases item <;> cases h <;> simp [HasCrate, modulePath?]

private theorem crateFault_of_modulePath? (h : item.modulePath? = some path) :
    item.crateFault = .noOperation path.typeName "split" := by
  cases item <;> cases h <;> rfl

private theorem crateKey_eq_error_iff :
    item.crateKey = .error f ↔ ¬item.HasCrate ∧ f = item.crateFault := by
  obtain ⟨d, rfl⟩ | ⟨path, hpath⟩ := item.namespaceDecl_or_modulePath?
  · exact Value.asKey_eq_error_iff
  · rw [crateKey_of_modulePath? hpath, hasCrate_iff_of_modulePath? hpath,
      crateFault_of_modulePath? hpath, ← Value.asText_eq_error_iff, bind_eq_error_iff]
    apply or_iff_left
    rintro ⟨s, -, h⟩
    cases h

end Item

namespace Grouping

variable {t : Table NamespaceDecl} {m : Table (List Item)} {items : List Item} {item : Item}

/-- Whether an item declares a namespace. -/
def declares (item : Item) : Bool := item.kind == .namespaceDecl || item.kind == .udlFile

/-- The name of the namespace that an item declares. -/
def declaredName : Item → Value
  | .namespaceDecl d => d.name
  | .udlFile d => d.namespaceName
  | _ => .null

/-- Registers the namespace of a crate. -/
def register (t : Table NamespaceDecl) (crate : Scalar) (name : Value) :
    Except GroupingError (Table NamespaceDecl) :=
  match Table.find? t crate with
  | some earlier =>
    if earlier.name.equals name then .ok (Table.put t crate ⟨.scalar crate, name⟩)
    else .error (.twoNamespaces (.scalar crate) earlier.name name)
  | none => .ok (Table.put t crate ⟨.scalar crate, name⟩)

/-- Puts an item behind the earlier ones of a crate. -/
def file (m : Table (List Item)) (crate : Scalar) (item : Item) :
    Except GroupingError (Table (List Item)) :=
  match Table.find? m crate with
  | none => .error (.unknownNamespace item.kind item.described (.scalar crate))
  | some earlier =>
    if earlier.any (·.same item) then .error (.duplicate item.kind item.described)
    else .ok (Table.put m crate (earlier ++ [item]))

private theorem declare_of_declares (h : declares item = true) : declare t item = (do
    register t (← item.crateKey.mapError .fault) (declaredName item)) := by
  cases item with
  | namespaceDecl d =>
    obtain ⟨crate, name⟩ := d
    cases crate <;> rfl
  | udlFile d =>
    obtain ⟨path, name, stub⟩ := d
    cases path with
    | scalar s => cases s <;> rfl
    | _ => rfl
  | _ => cases h

private theorem declare_of_not_declares (h : declares item = false) : declare t item = .ok t := by
  cases item with
  | namespaceDecl | udlFile => cases h
  | _ => rfl

private theorem place_of_isMember (h : isMember item = true) : place m item = (do
    file m (← item.crateKey.mapError .fault) item) := by
  have hplace : place m item = (do
      let crate ← item.crateName.mapError .fault
      let key ← crate.asKey.mapError .fault
      match Table.find? m key with
      | none => throw (.unknownNamespace item.kind item.described crate)
      | some earlier =>
        if earlier.any (·.same item) then throw (.duplicate item.kind item.described)
        else return Table.put m key (earlier ++ [item])) := by
    cases item with
    | namespaceDecl d => cases h
    | _ => rfl
  rw [hplace, Item.crateKey]
  cases item.crateName with
  | error f => rfl
  | ok crate => cases crate <;> rfl

private theorem place_of_not_isMember (h : isMember item = false) : place m item = .ok m := by
  cases item with
  | namespaceDecl d => rfl
  | _ => cases h

private theorem register_ne_fault {crate : Scalar} {name : Value} {f : Fault} :
    register t crate name ≠ .error (.fault f) := by
  unfold register
  split
  · split <;> simp
  · simp

private theorem file_ne_fault {crate : Scalar} {f : Fault} :
    file m crate item ≠ .error (.fault f) := by
  unfold file
  split
  · simp
  · split <;> simp

private theorem keyed_eq_fault_iff {α β : Type} {x : Except Fault α}
    {next : α → Except GroupingError β} {f : Fault} (h : ∀ a, next a ≠ .error (.fault f)) :
    (x.mapError .fault >>= next) = .error (.fault f) ↔ x = .error f := by
  rw [bind_eq_error_iff, mapError_eq_error_iff]
  constructor
  · rintro (⟨g, hg, heq⟩ | ⟨a, -, hn⟩)
    · cases heq
      exact hg
    · exact absurd hn (h a)
  · exact fun hx => .inl ⟨f, hx, rfl⟩

/-- The namespace of an item cannot be told exactly if it declares one for no crate. -/
theorem declare_eq_fault_iff {f : Fault} : declare t item = .error (.fault f) ↔
    declares item = true ∧ ¬item.HasCrate ∧ f = item.crateFault := by
  rw [← Item.crateKey_eq_error_iff]
  cases h : declares item with
  | true =>
    rw [declare_of_declares h]
    simpa using keyed_eq_fault_iff fun _ => register_ne_fault
  | false => simp [declare_of_not_declares h]

/-- An item that is no namespace cannot be placed exactly if it belongs to no crate. -/
theorem place_eq_fault_iff {f : Fault} : place m item = .error (.fault f) ↔
    isMember item = true ∧ ¬item.HasCrate ∧ f = item.crateFault := by
  rw [← Item.crateKey_eq_error_iff]
  cases h : isMember item with
  | true =>
    rw [place_of_isMember h]
    simpa using keyed_eq_fault_iff fun _ => file_ne_fault
  | false => simp [place_of_not_isMember h]

/-! ## The crates of a table of namespaces -/

/-- What one item does to a table of namespaces. -/
theorem declare_eq_ok {t' : Table NamespaceDecl} (h : declare t item = .ok t') :
    (declares item = false ∧ t' = t) ∨
      ∃ crate d, declares item = true ∧ item.crateKey = .ok crate ∧ t' = Table.put t crate d := by
  cases hd : declares item with
  | false =>
    rw [declare_of_not_declares hd] at h
    exact .inl ⟨rfl, (Except.ok.inj h).symm⟩
  | true =>
    rw [declare_of_declares hd] at h
    obtain ⟨crate, hcrate, h⟩ := exists_of_bind_eq_ok h
    refine .inr ⟨crate, ⟨.scalar crate, declaredName item⟩, rfl, eq_ok_of_mapError hcrate, ?_⟩
    unfold register at h
    split at h
    · split at h
      · exact (Except.ok.inj h).symm
      · cases h
    · exact (Except.ok.inj h).symm

/-- A table has the crates for which items declare namespaces. -/
structure Collects (t : Table NamespaceDecl) (items : List Item) : Prop where
  distinct : t.Distinct
  declared : ∀ e ∈ t, ∃ item ∈ items, declares item = true ∧ item.crateKey = .ok e.1
  found : ∀ item ∈ items, declares item = true →
    ∃ crate, item.crateKey = .ok crate ∧ Table.has t crate = true

namespace Collects

private theorem nil : Collects [] [] where
  distinct := Table.distinct_nil
  declared := by simp
  found := by simp

private theorem declare {t' : Table NamespaceDecl} {done : List Item} (h : Collects t done)
    (hd : Grouping.declare t item = .ok t') : Collects t' (done ++ [item]) := by
  obtain ⟨hnone, rfl⟩ | ⟨crate, d, hsome, hcrate, rfl⟩ := declare_eq_ok hd
  · refine ⟨h.distinct, ?_, ?_⟩
    · intro e he
      obtain ⟨a, ha, hkey⟩ := h.declared e he
      exact ⟨a, List.mem_append_left _ ha, hkey⟩
    · intro a ha hdeclares
      rcases List.mem_append.mp ha with ha | ha
      · exact h.found a ha hdeclares
      · rw [List.mem_singleton.mp ha, hnone] at hdeclares
        cases hdeclares
  · refine ⟨Table.distinct_put h.distinct _ _, ?_, ?_⟩
    · intro e he
      rcases Table.mem_put he with hkey | ⟨w, hw⟩
      · exact ⟨item, by simp, hsome, hkey ▸ hcrate⟩
      · obtain ⟨a, ha, hkey⟩ := h.declared _ hw
        exact ⟨a, List.mem_append_left _ ha, hkey⟩
    · intro a ha hdeclares
      rcases List.mem_append.mp ha with ha | ha
      · obtain ⟨key, hkey, hhas⟩ := h.found a ha hdeclares
        exact ⟨key, hkey, by rw [Table.has_put, hhas, Bool.or_true]⟩
      · obtain rfl := List.mem_singleton.mp ha
        exact ⟨crate, hcrate, by rw [Table.has_put, Scalar.same_refl, Bool.true_or]⟩

private theorem foldlM {done rest : List Item} {t' : Table NamespaceDecl} (h : Collects t done)
    (hr : rest.foldlM Grouping.declare t = .ok t') : Collects t' (done ++ rest) := by
  induction rest generalizing t done with
  | nil =>
    obtain rfl := Except.ok.inj hr
    rwa [List.append_nil]
  | cons item rest ih =>
    rw [List.foldlM_cons] at hr
    obtain ⟨t₁, ht₁, hr⟩ := exists_of_bind_eq_ok hr
    have hrest := ih (h.declare ht₁) hr
    rwa [List.append_assoc, List.singleton_append] at hrest

end Collects

private theorem collects_namespaces (h : namespaces items = .ok t) : Collects t items := by
  have hall := Collects.nil.foldlM h
  rwa [List.nil_append] at hall

/-- The crate of an item that declares a namespace has an entry. -/
theorem Collects.exists_mem (h : Collects t items) (hmem : item ∈ items)
    (hd : declares item = true) {crate : Scalar} (hc : item.crateKey = .ok crate) :
    ∃ e ∈ t, e.1.same crate = true := by
  obtain ⟨key, hkey, hhas⟩ := h.found item hmem hd
  rw [hc] at hkey
  cases hkey
  exact Table.has_iff.mp hhas

/-- Whether the crates for which items declare namespaces can be compared with each other. -/
def Sortable (items : List Item) : Prop :=
  ∀ a ∈ items, ∀ b ∈ items, declares a = true → declares b = true → ∀ j k,
    a.crateKey = .ok j → b.crateKey = .ok k → j.same k = true ∨ j.Comparable k

/-- The crates of a table can be sorted exactly if those that the items declare can be compared. -/
theorem Collects.sortByKey_isOk_iff (h : Collects t items) :
    (∃ sorted, sortByKey Prod.fst t = .ok sorted) ↔ Sortable items := by
  have hdistinct : (t.map Prod.fst).Pairwise fun a b => a.same b = false :=
    List.pairwise_map.mpr h.distinct
  rw [BindGen.sortByKey_isOk_iff hdistinct, List.pairwise_map]
  constructor
  · intro hsorted a ha b hb hda hdb j k hj hk
    obtain ⟨e, he, hej⟩ := h.exists_mem ha hda hj
    obtain ⟨e', he', hek⟩ := h.exists_mem hb hdb hk
    by_cases heq : e = e'
    · subst heq
      exact .inl (Scalar.same_trans (Scalar.same_symm hej) hek)
    · have hsymm : Std.Symm fun e e' : Scalar × NamespaceDecl => e.1.Comparable e'.1 :=
        ⟨fun _ _ => Scalar.Comparable.symm⟩
      exact .inr ((Scalar.Comparable.congr hej hek).mp (hsorted.forall he he' heq))
  · intro hs
    apply h.distinct.imp_of_mem
    intro e e' he he' hdiffer
    obtain ⟨a, ha, hda, hka⟩ := h.declared e he
    obtain ⟨b, hb, hdb, hkb⟩ := h.declared e' he'
    apply (hs a ha b hb hda hdb _ _ hka hkb).resolve_left
    rw [hdiffer]
    exact Bool.false_ne_true

/-! ## Grouping -/

/-- The items, placed by the crates of a table of namespaces. -/
def placed (t : Table NamespaceDecl) (items : List Item) :
    Except GroupingError (Table (List Item)) :=
  items.foldlM place (Table.mapValues (fun _ => []) t)

private theorem namespaces_eq_fault_iff {f : Fault} : namespaces items = .error (.fault f) ↔
    ∃ before item after t, items = before ++ item :: after ∧ namespaces before = .ok t ∧
      declares item = true ∧ ¬item.HasCrate ∧ f = item.crateFault := by
  rw [namespaces, foldlM_eq_error_iff]
  simp only [declare_eq_fault_iff, namespaces]

private theorem placed_eq_fault_iff {f : Fault} : placed t items = .error (.fault f) ↔
    ∃ before item after m, items = before ++ item :: after ∧ placed t before = .ok m ∧
      isMember item = true ∧ ¬item.HasCrate ∧ f = item.crateFault := by
  rw [placed, foldlM_eq_error_iff]
  simp only [place_eq_fault_iff, placed]

private theorem groups_eq_bind (items : List Item) : groups items = (do
    let t ← namespaces items
    let m ← placed t items
    let sorted ← (sortByKey Prod.fst t).mapError GroupingError.fault
    return sorted.map fun (crate, d) => ⟨d, (Table.find? m crate).getD []⟩) := rfl

private theorem groups_eq_fault_iff {f : Fault} : groups items = .error (.fault f) ↔
    namespaces items = .error (.fault f) ∨ ∃ t, namespaces items = .ok t ∧
      (placed t items = .error (.fault f) ∨
        (∃ m, placed t items = .ok m) ∧ sortByKey Prod.fst t = .error f) := by
  have hsorted (t : Table NamespaceDecl) (m : Table (List Item)) :
      ((sortByKey Prod.fst t).mapError GroupingError.fault >>= fun sorted =>
        return sorted.map fun (crate, d) => Group.mk d ((Table.find? m crate).getD [])) =
          .error (.fault f) ↔ sortByKey Prod.fst t = .error f :=
    keyed_eq_fault_iff fun _ h => by cases h
  simp only [groups_eq_bind, bind_eq_error_iff, hsorted, exists_and_right]

/-- Grouping fails with a fault exactly if an item declares a namespace for no crate, behind items
of which the namespaces can be told; or all namespaces can be told and an item belongs to no crate,
behind items that can be placed; or all items can be placed and the crates cannot be sorted. The
fault is that of an item without a crate, or that of comparing crates. -/
theorem groups_fault_iff (items : List Item) :
    ((∃ f, groups items = .error (.fault f)) ↔
      (∃ before item after t, items = before ++ item :: after ∧ namespaces before = .ok t ∧
          declares item = true ∧ ¬item.HasCrate) ∨
        ∃ t, namespaces items = .ok t ∧
          ((∃ before item after m, items = before ++ item :: after ∧ placed t before = .ok m ∧
              isMember item = true ∧ ¬item.HasCrate) ∨
            (∃ m, placed t items = .ok m) ∧ ¬Sortable items)) ∧
      ∀ f, groups items = .error (.fault f) →
        (∃ item ∈ items, ¬item.HasCrate ∧ f = item.crateFault) ∨
          ∃ first second, f = .notOrdered first second := by
  have hunsorted {t : Table NamespaceDecl} (ht : namespaces items = .ok t) :
      (∃ f, sortByKey Prod.fst t = .error f) ↔ ¬Sortable items := by
    rw [← (collects_namespaces ht).sortByKey_isOk_iff]
    cases sortByKey Prod.fst t <;> simp
  refine ⟨⟨?_, ?_⟩, ?_⟩
  · rintro ⟨f, h⟩
    obtain hn | ⟨t, ht, hp | ⟨hm, hs⟩⟩ := groups_eq_fault_iff.mp h
    · obtain ⟨before, item, after, t, hitems, ht, hd, hcrate, -⟩ := namespaces_eq_fault_iff.mp hn
      exact .inl ⟨before, item, after, t, hitems, ht, hd, hcrate⟩
    · obtain ⟨before, item, after, m, hitems, hm, hmember, hcrate, -⟩ := placed_eq_fault_iff.mp hp
      exact .inr ⟨t, ht, .inl ⟨before, item, after, m, hitems, hm, hmember, hcrate⟩⟩
    · exact .inr ⟨t, ht, .inr ⟨hm, (hunsorted ht).mp ⟨f, hs⟩⟩⟩
  · rintro (⟨before, item, after, t, hitems, ht, hd, hcrate⟩ |
      ⟨t, ht, ⟨before, item, after, m, hitems, hm, hmember, hcrate⟩ | ⟨hm, hs⟩⟩)
    · have hn := namespaces_eq_fault_iff.mpr ⟨before, item, after, t, hitems, ht, hd, hcrate, rfl⟩
      exact ⟨_, groups_eq_fault_iff.mpr (.inl hn)⟩
    · have hp := placed_eq_fault_iff.mpr ⟨before, item, after, m, hitems, hm, hmember, hcrate, rfl⟩
      exact ⟨_, groups_eq_fault_iff.mpr (.inr ⟨t, ht, .inl hp⟩)⟩
    · obtain ⟨f, hf⟩ := (hunsorted ht).mpr hs
      exact ⟨f, groups_eq_fault_iff.mpr (.inr ⟨t, ht, .inr ⟨hm, hf⟩⟩)⟩
  · intro f h
    obtain hn | ⟨t, ht, hp | ⟨-, hs⟩⟩ := groups_eq_fault_iff.mp h
    · obtain ⟨before, item, after, t, rfl, -, -, hcrate, hf⟩ := namespaces_eq_fault_iff.mp hn
      exact .inl ⟨item, by simp, hcrate, hf⟩
    · obtain ⟨before, item, after, m, rfl, -, -, hcrate, hf⟩ := placed_eq_fault_iff.mp hp
      exact .inl ⟨item, by simp, hcrate, hf⟩
    · exact .inr (exists_notOrdered_of_sortByKey hs)

-- An object whose module path is a number.
private def numbered : Item := .object ⟨.int 5, "Shape", .null⟩

private theorem hasJsonFields_numbered : numbered.HasJsonFields 985 := by
  refine List.forall_mem_cons.mpr ⟨.scalar ?_, List.forall_mem_cons.mpr ⟨.scalar trivial,
    List.forall_mem_cons.mpr ⟨.scalar trivial, List.forall_mem_nil _⟩⟩⟩
  change Double.digitCount 5 ≤ Text.digitLimit
  decide

private theorem length_numbered :
    (Utf8.encode (Json.write (.table numbered.payload))).length < 2 ^ 32 := by
  have hwrite : Json.write (.table numbered.payload) =
      ("\x7b\"docstring\":null,\"kind\":\"object\"," ++
        "\"module_path\":5,\"name\":\"Shape\"\x7d").toList := by
    rw [Json.write_table numbered.worded_payload,
      Table.sortOn_eq_of_pairwise numbered.distinct_payload numbered.worded_payload
        (@List.perm_append_comm _ [_, _] [_, _]) (by decide)]
    rfl
  rw [hwrite]
  decide

/-- An object that is extracted behind a namespace, although its module path is a number. -/
theorem groups_fault_iff_numbered :
    Wire.extract (Wire.encodeItem Wire.coreNamespace ++ Wire.encodeItem numbered) =
        .ok [Wire.coreNamespace, numbered] ∧
      ∃ f, groups [Wire.coreNamespace, numbered] = .error (.fault f) := by
  constructor
  · have h := Wire.extract_pair Wire.hasJsonFields_coreNamespace hasJsonFields_numbered
      Wire.length_coreNamespace length_numbered
    simpa [Wire.coreNamespace, numbered, Item.inOrder, Value.inOrder_scalar] using h
  · apply (groups_fault_iff [Wire.coreNamespace, numbered]).1.mpr
    refine .inr ⟨[("core", ⟨"core", "core"⟩)], rfl, .inl ?_⟩
    refine ⟨[Wire.coreNamespace], numbered, [], _, rfl, rfl, rfl, ?_⟩
    rintro ⟨path, hpath⟩
    cases path <;> cases hpath

end Grouping
end BindGen

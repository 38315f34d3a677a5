import BindGen.Package.Graph
import BindGen.Proofs.Value.Parts

/-!
# The entries of listings

What an entry of a listing has to look like, and what comes of a listing whose entries look
otherwise. An entry is refused as malformed if it is a table; one that is no table lacks the
operation that is asked of it first, and this fault is not taken for a malformed entry.
-/

namespace BindGen

/-- What stands under a key of a table is a list of values that have a property, or it does not
count as true. -/
def Package.MayList (entries : Table Value) (key : String) (P : Value → Prop) : Prop :=
  ∀ v, Table.find? entries key = some v → v.isTruthy = true → v.IsListOf P

/-- A dependency has a name. -/
def Dependency.IsEntry (v : Value) : Prop :=
  ∃ entries, v = .table entries ∧ Table.has entries "name" = true

/-- A target has a name, and kinds that can be gone through unless they do not count as true. -/
def Target.IsEntry (v : Value) : Prop :=
  ∃ entries, v = .table entries ∧ Table.has entries "name" = true ∧
    ∀ kinds, Table.find? entries "kind" = some kinds → kinds.isTruthy = true → kinds.IsIterable

/-- A table that describes a package. -/
structure Package.Describes (entries : Table Value) : Prop where
  dependencies : MayList entries "dependencies" Dependency.IsEntry
  targets : MayList entries "targets" Target.IsEntry
  name : Table.has entries "name" = true
  manifest : ∃ path : LooseText, Table.find? entries "manifest_path" = some path.value

/-- An entry that describes a package. -/
def Package.IsEntry (v : Value) : Prop := ∃ entries, v = .table entries ∧ Package.Describes entries

/-- A listing has a list of entries. -/
def Package.Lists (listing : Value) (entries : List Value) : Prop :=
  ∃ t, listing = .table t ∧ Table.find? t "packages" = some (.list entries)

namespace Package

variable {P : Value → Prop} {v entry listing : Value} {entries : Table Value} {key : String} {f : Fault}

/-- The values under a key of a table, each of them read. -/
def readUnder {α : Type} (entries : Table Value) (key : String) (read : Value → Except Fault α) :
    Except Fault (List α) := do
  (← (((Table.find? entries key).getD .null).orElse (.list [])).elements).mapM read

/-- How the package of a table is read. -/
theorem ofEntry_table (entries : Table Value) : ofEntry (.table entries) = (do
    let dependencies ← readUnder entries "dependencies" dependencyOf
    let targets ← readUnder entries "targets" targetOf
    let name ← (Value.table entries).part "name"
    let manifest ← (Value.table entries).part "manifest_path" >>= pathOf
    let version := (Table.find? entries "version").getD "0.0.0"
    return ⟨name.display, version.display, manifest, dependencies, targets⟩) := by
  simp only [readUnder, bind_assoc]
  rfl

-- What is gone through in place of a value that may be missing.
private theorem orElse_nil_cases (o : Option Value) :
    ((o.getD .null).orElse (.list []) = .list [] ∧ ∀ v, o = some v → ¬v.isTruthy = true) ∨
      ∃ v, o = some v ∧ v.isTruthy = true ∧ (o.getD .null).orElse (.list []) = v := by
  cases o with
  | none => exact .inl ⟨rfl, by simp⟩
  | some v =>
    by_cases hv : v.isTruthy = true
    · exact .inr ⟨v, rfl, hv, if_pos hv⟩
    · exact .inl ⟨if_neg hv, by simpa using hv⟩

/-- What stands under a key can be read exactly if each value can be, where no scalar can. -/
theorem readUnder_isOk_iff {α : Type} {read : Value → Except Fault α}
    (hread : ∀ v, (∃ a, read v = .ok a) ↔ P v) (hscalar : ∀ s, ¬P (.scalar s)) :
    (∃ as, readUnder entries key read = .ok as) ↔ MayList entries key P := by
  rw [readUnder, bind_isOk_iff, MayList]
  simp only [mapM_isOk_iff, hread]
  obtain ⟨heq, hnone⟩ | ⟨v, hv, htrue, heq⟩ := orElse_nil_cases (Table.find? entries key)
  · rw [heq]
    refine ⟨fun _ v hv htrue => absurd htrue (hnone v hv), fun _ => ⟨[], rfl, ?_⟩⟩
    exact List.forall_mem_nil _
  · rw [heq, Value.forall_mem_elements_iff hscalar htrue]
    simp [hv, htrue]

private theorem readUnder_failsWith {α : Type} {read : Value → Except Fault α}
    (hread : ∀ v, FailsWith Fault.IsMisfit (read v)) :
    FailsWith Fault.IsMisfit (readUnder entries key read) := by
  apply Value.elements_failsWith.bind
  intro items _
  exact FailsWith.mapM fun v _ => hread v

/-! ## Dependencies, targets and paths -/

private theorem dependencyOf_isOk_iff : (∃ d, dependencyOf v = .ok d) ↔ Dependency.IsEntry v := by
  constructor
  · rintro ⟨d, h⟩
    obtain ⟨name, hname, -⟩ := exists_of_bind_eq_ok h
    exact Value.part_isOk_iff.mp ⟨name, hname⟩
  · rintro ⟨entries, rfl, hname⟩
    obtain ⟨name, h⟩ := Value.part_isOk_iff.mpr ⟨entries, rfl, hname⟩
    rw [dependencyOf, h]
    exact ⟨_, rfl⟩

private theorem dependencyOf_failsWith : FailsWith Fault.IsMisfit (dependencyOf v) := by
  apply Value.part_failsWith.bind
  intro name hname
  -- A value that has a name is a table, so its kind can be asked for.
  obtain ⟨entries, rfl, -⟩ := Value.part_isOk_iff.mp ⟨name, hname⟩
  exact .ok _

private theorem targetOf_isOk_iff : (∃ t, targetOf v = .ok t) ↔ Target.IsEntry v := by
  have hkinds (entries : Table Value) :
      (∃ items, (((Table.find? entries "kind").getD .null).orElse (.list [])).elements = .ok items) ↔
        ∀ kinds, Table.find? entries "kind" = some kinds → kinds.isTruthy = true →
          kinds.IsIterable := by
    rw [Value.elements_isOk_iff]
    obtain ⟨heq, hnone⟩ | ⟨v, hv, htrue, heq⟩ := orElse_nil_cases (Table.find? entries "kind")
    · rw [heq]
      exact ⟨fun _ v hv htrue => absurd htrue (hnone v hv), fun _ => trivial⟩
    · rw [heq]
      simp [hv, htrue]
  constructor
  · rintro ⟨t, h⟩
    obtain ⟨name, hname, h⟩ := exists_of_bind_eq_ok h
    obtain ⟨entries, rfl, hhas⟩ := Value.part_isOk_iff.mp ⟨name, hname⟩
    rw [Value.optionalPart, ok_bind] at h
    obtain ⟨kinds, hitems, -⟩ := exists_of_bind_eq_ok h
    exact ⟨entries, rfl, hhas, (hkinds entries).mp ⟨kinds, hitems⟩⟩
  · rintro ⟨entries, rfl, hname, hiterable⟩
    obtain ⟨name, h⟩ := Value.part_isOk_iff.mpr ⟨entries, rfl, hname⟩
    obtain ⟨kinds, hitems⟩ := (hkinds entries).mpr hiterable
    refine ⟨⟨name.display, kinds⟩, ?_⟩
    rw [targetOf, h, ok_bind, Value.optionalPart, ok_bind, hitems]
    rfl

private theorem targetOf_failsWith : FailsWith Fault.IsMisfit (targetOf v) := by
  apply Value.part_failsWith.bind
  intro name hname
  obtain ⟨entries, rfl, -⟩ := Value.part_isOk_iff.mp ⟨name, hname⟩
  rw [Value.optionalPart, ok_bind]
  apply Value.elements_failsWith.bind
  intro kinds _
  exact .ok _

private theorem pathOf_isOk_iff : (∃ p, pathOf v = .ok p) ↔ ∃ path : LooseText, v = path.value := by
  constructor
  · rintro ⟨p, h⟩
    rw [pathOf.eq_def] at h
    split at h
    · next s => exact ⟨.proper s, rfl⟩
    · next t => exact ⟨.broken t, rfl⟩
    · cases h
  · rintro ⟨path, rfl⟩
    cases path <;> exact ⟨_, rfl⟩

private theorem pathOf_failsWith : FailsWith Fault.IsMisfit (pathOf v) := by
  rw [pathOf.eq_def]
  split
  · exact .ok _
  · exact .ok _
  · exact .error (.inr rfl)

/-! ## Entries -/

private theorem manifest_isOk_iff :
    (∃ p, ((Value.table entries).part "manifest_path" >>= pathOf) = .ok p) ↔
      ∃ path : LooseText, Table.find? entries "manifest_path" = some path.value := by
  rw [bind_isOk_iff]
  simp only [pathOf_isOk_iff, Value.part]
  cases Table.find? entries "manifest_path" with
  | none => simp
  | some v => simp

/-- An entry is read exactly if it describes a package. -/
theorem ofEntry_table_isOk_iff : (∃ p, ofEntry (.table entries) = .ok p) ↔ Describes entries := by
  have hdependencies : (∃ as, readUnder entries "dependencies" dependencyOf = .ok as) ↔ _ :=
    readUnder_isOk_iff (fun _ => dependencyOf_isOk_iff) (by rintro s ⟨_, h, -⟩; cases h)
  have htargets : (∃ as, readUnder entries "targets" targetOf = .ok as) ↔ _ :=
    readUnder_isOk_iff (fun _ => targetOf_isOk_iff) (by rintro s ⟨_, h, -⟩; cases h)
  have hname : (∃ w, (Value.table entries).part "name" = .ok w) ↔ _ := Value.part_isOk_iff
  rw [ofEntry_table]
  constructor
  · rintro ⟨p, h⟩
    obtain ⟨dependencies, hd, h⟩ := exists_of_bind_eq_ok h
    obtain ⟨targets, ht, h⟩ := exists_of_bind_eq_ok h
    obtain ⟨name, hn, h⟩ := exists_of_bind_eq_ok h
    obtain ⟨manifest, hm, -⟩ := exists_of_bind_eq_ok h
    obtain ⟨_, heq, hn⟩ := hname.mp ⟨name, hn⟩
    cases heq
    exact ⟨hdependencies.mp ⟨_, hd⟩, htargets.mp ⟨_, ht⟩, hn, manifest_isOk_iff.mp ⟨_, hm⟩⟩
  · intro h
    obtain ⟨dependencies, hd⟩ := hdependencies.mpr h.dependencies
    obtain ⟨targets, ht⟩ := htargets.mpr h.targets
    obtain ⟨name, hn⟩ := hname.mpr ⟨entries, rfl, h.name⟩
    obtain ⟨manifest, hm⟩ := manifest_isOk_iff.mpr h.manifest
    rw [hd, ok_bind, ht, ok_bind, hn, ok_bind, hm]
    exact ⟨_, rfl⟩

/-- A table that cannot be read lacks a key, or a part of it is of a wrong type. -/
theorem ofEntry_table_failsWith : FailsWith Fault.IsMisfit (ofEntry (.table entries)) := by
  rw [ofEntry_table]
  apply (readUnder_failsWith fun _ => dependencyOf_failsWith).bind
  intro dependencies _
  apply (readUnder_failsWith fun _ => targetOf_failsWith).bind
  intro targets _
  apply Value.part_failsWith.bind
  intro name _
  apply (Value.part_failsWith.bind fun _ _ => pathOf_failsWith).bind
  intro manifest _
  exact .ok _

/-- What is no table lacks the first operation of reading. -/
theorem ofEntry_of_not_isTable (h : ¬v.IsTable) :
    ofEntry v = .error (.noOperation v.typeName "get") := by
  have hpart : v.optionalPart "dependencies" = .error (.noOperation v.typeName "get") :=
    Value.optionalPart_eq_error_iff.mpr ⟨h, rfl⟩
  unfold ofEntry
  rw [hpart]
  rfl

private theorem ofEntry_isOk_iff : (∃ p, ofEntry v = .ok p) ↔ IsEntry v := by
  constructor
  · rintro ⟨p, hp⟩
    by_cases hv : v.IsTable
    · obtain ⟨entries, rfl⟩ := hv
      exact ⟨entries, rfl, ofEntry_table_isOk_iff.mp ⟨p, hp⟩⟩
    · rw [ofEntry_of_not_isTable hv] at hp
      cases hp
  · rintro ⟨entries, rfl, h⟩
    exact ofEntry_table_isOk_iff.mpr h

/-! ## Listings -/

/-- How a fault of an entry is reported. -/
def reported (f : Fault) : GraphError := if f.kind = .operation then .fault f else .malformed f

variable {es : List Value} {e : GraphError}

private theorem listOf_eq (h : Lists listing es) :
    listOf listing = es.mapM fun entry => (ofEntry entry).mapError reported := by
  obtain ⟨t, rfl, ht⟩ := h
  rw [listOf, ht]
  rfl

/-- What has no list of entries is no listing. -/
theorem listOf_eq_noPackages (h : ∀ es, ¬Lists listing es) : listOf listing = .error .noPackages := by
  rw [listOf.eq_def]
  split
  · next t =>
    split
    · next es ht => exact absurd ⟨t, rfl, ht⟩ (h es)
    · rfl
  · rfl

/-- A listing fails as the first of its entries does that is none. -/
theorem listOf_eq_error_iff (h : Lists listing es) : listOf listing = .error e ↔
    ∃ before entry after f, es = before ++ entry :: after ∧ (∀ b ∈ before, IsEntry b) ∧
      ofEntry entry = .error f ∧ reported f = e := by
  rw [listOf_eq h, mapM_eq_error_iff]
  simp only [mapError_eq_ok_iff, mapError_eq_error_iff, ofEntry_isOk_iff]
  constructor
  · rintro ⟨before, entry, after, hes, hbefore, f, hf, he⟩
    exact ⟨before, entry, after, f, hes, hbefore, hf, he⟩
  · rintro ⟨before, entry, after, f, hes, hbefore, hf, he⟩
    exact ⟨before, entry, after, hes, hbefore, f, hf, he⟩

/-- The faults of tables are reported as malformed entries, those of other values are not. -/
theorem reported_of_ofEntry (h : ofEntry entry = .error f) :
    (entry.IsTable ∧ reported f = .malformed f) ∨
      (¬entry.IsTable ∧ reported f = .fault (.noOperation entry.typeName "get")) := by
  by_cases htable : entry.IsTable
  · obtain ⟨entries, rfl⟩ := htable
    have hkind : f.kind ≠ .operation := by
      rcases ofEntry_table_failsWith f h with hf | hf
      · simp [hf]
      · simp [hf]
    exact .inl ⟨⟨entries, rfl⟩, if_neg hkind⟩
  · rw [ofEntry_of_not_isTable htable] at h
    cases h
    exact .inr ⟨htable, rfl⟩

private theorem listOf_eq_ok_iff {packages : List Package} : listOf listing = .ok packages ↔
    ∃ es, Lists listing es ∧
      List.Forall₂ (fun entry package => ofEntry entry = .ok package) es packages := by
  have hread {es : List Value} (h : Lists listing es) : listOf listing = .ok packages ↔
      List.Forall₂ (fun entry package => ofEntry entry = .ok package) es packages := by
    rw [listOf_eq h, mapM_eq_ok_iff]
    simp only [mapError_eq_ok_iff]
  constructor
  · intro hok
    by_cases h : ∃ es, Lists listing es
    · obtain ⟨es, h⟩ := h
      exact ⟨es, h, (hread h).mp hok⟩
    · rw [listOf_eq_noPackages (not_exists.mp h)] at hok
      cases hok
  · rintro ⟨es, h, hes⟩
    exact (hread h).mpr hes

private theorem listOf_isOk_iff : (∃ packages, listOf listing = .ok packages) ↔
    ∃ es, Lists listing es ∧ ∀ entry ∈ es, IsEntry entry := by
  simp only [listOf_eq_ok_iff, ← mapM_eq_ok_iff]
  constructor
  · rintro ⟨packages, es, h, hes⟩
    refine ⟨es, h, fun entry hentry => ofEntry_isOk_iff.mp ?_⟩
    exact mapM_isOk_iff.mp ⟨packages, hes⟩ entry hentry
  · rintro ⟨es, h, hes⟩
    obtain ⟨packages, hpackages⟩ := mapM_isOk_iff.mpr fun entry hentry =>
      ofEntry_isOk_iff.mpr (hes entry hentry)
    exact ⟨packages, es, h, hpackages⟩

/-- What stands in the way of reading a listing: it has no list of entries, or a first entry that
describes no package. -/
theorem listOf_eq_error_cases (h : listOf listing = .error e) :
    (e = .noPackages ∧ ∀ es, ¬Lists listing es) ∨
      ∃ before entry after f, Lists listing (before ++ entry :: after) ∧
        (∀ b ∈ before, IsEntry b) ∧ ofEntry entry = .error f ∧ reported f = e := by
  by_cases hlists : ∃ es, Lists listing es
  · obtain ⟨es, hes⟩ := hlists
    obtain ⟨before, entry, after, f, rfl, hbefore, hf, he⟩ := (listOf_eq_error_iff hes).mp h
    exact .inr ⟨before, entry, after, f, hes, hbefore, hf, he⟩
  · rw [listOf_eq_noPackages (not_exists.mp hlists)] at h
    exact .inl ⟨(Except.error.inj h).symm, not_exists.mp hlists⟩

private theorem listOf_eq_fault_iff : listOf listing = .error (.fault f) ↔ ∃ before entry after,
    Lists listing (before ++ entry :: after) ∧ (∀ b ∈ before, IsEntry b) ∧ ¬entry.IsTable ∧
      f = .noOperation entry.typeName "get" := by
  constructor
  · intro h
    obtain ⟨heq, -⟩ | ⟨before, entry, after, g, hes, hbefore, hg, he⟩ := listOf_eq_error_cases h
    · cases heq
    · obtain ⟨-, hr⟩ | ⟨htable, hr⟩ := reported_of_ofEntry hg
      · rw [hr] at he
        cases he
      · rw [hr] at he
        cases he
        exact ⟨before, entry, after, hes, hbefore, htable, rfl⟩
  · rintro ⟨before, entry, after, hes, hbefore, htable, rfl⟩
    apply (listOf_eq_error_iff hes).mpr
    exact ⟨before, entry, after, _, rfl, hbefore, ofEntry_of_not_isTable htable, rfl⟩

/-- A listing gives a package for each of its entries, in their order, exactly if it has a list of
them and all describe packages. Otherwise it is reported that there is no list, or that the first
entry that describes no package is malformed, unless this entry is no table: then the listing fails
with the fault of the operation that only tables have, and this is no error of the query. -/
theorem listOf_spec (listing : Value) :
    ((∃ packages, listOf listing = .ok packages) ↔
        ∃ es, Lists listing es ∧ ∀ entry ∈ es, IsEntry entry) ∧
      (∀ packages, listOf listing = .ok packages → ∃ es, Lists listing es ∧
        List.Forall₂ (fun entry package => ofEntry entry = .ok package) es packages) ∧
      (∀ f, listOf listing = .error (.fault f) ↔ ∃ before entry after,
        Lists listing (before ++ entry :: after) ∧ (∀ b ∈ before, IsEntry b) ∧ ¬entry.IsTable ∧
          f = .noOperation entry.typeName "get") ∧
      ∀ e, listOf listing = .error e → (∀ f, e ≠ .fault f) →
        (e = .noPackages ∧ ∀ es, ¬Lists listing es) ∨
          ∃ before entry after cause, Lists listing (before ++ entry :: after) ∧
            (∀ b ∈ before, IsEntry b) ∧ entry.IsTable ∧ ofEntry entry = .error cause ∧
              e = .malformed cause := by
  refine ⟨listOf_isOk_iff, fun _ => listOf_eq_ok_iff.mp, fun _ => listOf_eq_fault_iff, ?_⟩
  intro e he hfault
  obtain hnone | ⟨before, entry, after, f, hes, hbefore, hf, rfl⟩ := listOf_eq_error_cases he
  · exact .inl hnone
  · obtain ⟨htable, hr⟩ | ⟨-, hr⟩ := reported_of_ofEntry hf
    · exact .inr ⟨before, entry, after, f, hes, hbefore, htable, hf, hr⟩
    · exact absurd hr (hfault _)

/-- A text among the entries. -/
example : listOf (.table [("packages", .list ["core"])]) =
    .error (.fault (.noOperation "str" "get")) := rfl

end Package
end BindGen

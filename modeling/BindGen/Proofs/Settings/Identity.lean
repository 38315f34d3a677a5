import BindGen.Proofs.Settings.OwnValues

/-!
# Identity keys under inheritance

The keys that name a crate itself are as they were after a crate has inherited, in the shared
settings and in the table of each language. What inheriting adds is the modules of the dependencies:
for each of them the name that its shared settings give to its module.
-/

namespace BindGen.Settings

open Value

variable {own s s' d : Settings}

/-- The key that the modules of other crates stand under. -/
def modulesKey : Scalar := .text "external_modules"

/-- The key of the modules is one of those that are not inherited. -/
theorem isIdentityKey_modulesKey : isIdentityKey modulesKey = true := by decide

/-- Keys that are the same are both identity keys or neither is. -/
theorem isIdentityKey_congr {a b : Scalar} (h : a.same b = true) :
    isIdentityKey a = isIdentityKey b := by
  rw [isIdentityKey, isIdentityKey]
  congr 1
  funext name
  rw [Scalar.same_comm, Scalar.same_comm (.text name) b]
  exact Scalar.same_congr_left h _

/-- No identity key is inheritable. -/
theorem find?_inheritable {key : Scalar} (hk : isIdentityKey key = true) (t : Table Value) :
    Table.find? (inheritable t) key = none := by
  rw [Table.find?_eq_none_iff]
  intro e he
  have hnot : (!isIdentityKey e.1) = true := (List.mem_filter.mp he).2
  rw [← Bool.not_eq_true]
  intro hsame
  rw [isIdentityKey_congr hsame, hk] at hnot
  cases hnot

/-- An identity key stays as it is where inheritable entries are filled in. -/
theorem find?_fill_inheritable {key : Scalar} (hk : isIdentityKey key = true) {t u : Table Value}
    (hu : Keyed (.table u)) : Table.find? (fill t (inheritable u)) key = Table.find? t key := by
  have hkeyed : Keyed (.table (inheritable u)) := hu.filter _
  rw [find?_fill hkeyed.distinct, find?_inheritable hk]

/-- The table of a language keeps its identity keys when it is filled from dependencies. -/
theorem find?_filledLanguageTable {key language : Scalar} (hk : isIdentityKey key = true)
    {dependencies : Table Settings} (hd : ∀ e ∈ dependencies, e.2.Plain) :
    Table.find? (filledLanguageTable own language dependencies) key =
      Table.find? (own.languageTable language) key := by
  have hrun (t : Table Value) : Table.find? (dependencies.foldl
      (fun t e => fill t (inheritedTable own language (e.2.languageTable language))) t) key =
        Table.find? t key := by
    induction dependencies generalizing t with
    | nil => rfl
    | cons e rest ih =>
      have hkeyed := keyed_inheritedTable
        ((hd e List.mem_cons_self).keyed_languageTable language) own language
      have hnone : Table.find? (inheritedTable own language (e.2.languageTable language)) key =
          none := by
        rw [Table.find?_eq_none_iff]
        intro x hx
        exact Table.find?_eq_none_iff.mp (find?_inheritable hk _) x (List.mem_filter.mp hx).1
      rw [List.foldl_cons, ih fun e he => hd e (List.mem_cons_of_mem _ he),
        find?_fill hkeyed.distinct, hnone]
  exact hrun _

/-- The modules of dependencies, each under the name that is recorded for it. -/
def recordedModules (dependencies : Table Settings) : Except Fault (Table Value) :=
  dependencies.mapM fun e => do return (e.1, ← recordedName e.1 e.2)

/-- The recorded modules are those of the dependencies, crate by crate. -/
theorem mem_recordedModules {dependencies : Table Settings} {modules : Table Value}
    (h : recordedModules dependencies = .ok modules) {m : Scalar × Value} :
    m ∈ modules ↔ ∃ e ∈ dependencies, m.1 = e.1 ∧ recordedName e.1 e.2 = .ok m.2 := by
  constructor
  · intro hm
    obtain ⟨e, he, hr⟩ := exists_of_mem_mapM h hm
    obtain ⟨name, hname, rfl⟩ := exists_of_map_eq_ok hr
    exact ⟨e, he, rfl, hname⟩
  · rintro ⟨e, he, hkey, hname⟩
    obtain ⟨m', hm', hr⟩ := exists_mem_of_mapM h he
    obtain ⟨name, hname', rfl⟩ := exists_of_map_eq_ok hr
    rw [hname] at hname'
    obtain rfl := Except.ok.inj hname'
    rw [← hkey] at hm'
    exact hm'

/-- A crate has inherited from dependencies: its shared identity keys are kept, and if it had no
modules of other crates, those of the dependencies are recorded. -/
structure Identified (own : Settings) (dependencies : Table Settings) (now : Settings) : Prop where
  kept : ∀ key, isIdentityKey key = true → modulesKey.same key = false →
    Table.find? now.shared key = Table.find? own.shared key
  recorded : Table.find? own.shared modulesKey = none →
    ∃ modules, recordedModules dependencies = .ok modules ∧
      (Table.find? now.shared modulesKey).getD (.table []) = .table modules

private theorem find?_putNew_other {t : Table Value} {key : Scalar} {v : Value}
    (hkey : modulesKey.same key = false) :
    Table.find? (Table.putNew t modulesKey v) key = Table.find? t key := by
  rw [find?_putNew, hkey, if_neg Bool.false_ne_true]
  cases Table.find? t key <;> rfl

-- Recording a module changes the modules of other crates only.
private theorem recordModule_others (hs : s.Plain) {crate : Scalar}
    (h : s.recordModule crate d = .ok s') {key : Scalar} (hkey : modulesKey.same key = false) :
    Table.find? s'.shared key = Table.find? s.shared key := by
  rw [recordModule] at h
  simp only at h
  split at h
  · obtain rfl := Except.ok.inj h
    exact find?_putNew_other hkey
  · obtain ⟨name, -, h⟩ := exists_of_bind_eq_ok h
    rw [hs.links] at h
    obtain rfl := Except.ok.inj h
    have hd : Table.Distinct [(modulesKey, Value.table [(crate, name)])] :=
      List.pairwise_singleton _ _
    have hnone : Table.find? [(modulesKey, Value.table [(crate, name)])] key = none := by
      rw [Table.find?, hkey, if_neg Bool.false_ne_true, Table.find?_nil]
    change Table.find? (fill (Table.putNew s.shared modulesKey (.table []))
      [(modulesKey, .table [(crate, name)])]) key = _
    rw [find?_fill hd, hnone]
    exact find?_putNew_other hkey

-- Recording a module adds it to those that are recorded.
private theorem recordModule_modules (hs : s.Plain) {crate : Scalar} {modules : Table Value}
    (hm : (Table.find? s.shared modulesKey).getD (.table []) = .table modules)
    (hnew : Table.find? modules crate = none) (h : s.recordModule crate d = .ok s') :
    ∃ name, recordedName crate d = .ok name ∧
      Table.find? s'.shared modulesKey = some (.table (modules ++ [(crate, name)])) := by
  have hself : modulesKey.same modulesKey = true := Scalar.same_refl _
  have hknown : Table.find? (Table.putNew s.shared modulesKey (.table [])) modulesKey =
      some (.table modules) := by
    rw [find?_putNew, if_pos hself]
    cases hf : Table.find? s.shared modulesKey <;> rw [hf] at hm <;> exact congrArg some hm
  have htable : s.links.table? (.table modules) = some modules := rfl
  rw [recordModule] at h
  change (if ((Table.find? (Table.putNew s.shared modulesKey (.table [])) modulesKey).bind
    s.links.table?).isNone then _ else _) = _ at h
  rw [hknown, Option.bind_some, htable, if_neg (by simp)] at h
  obtain ⟨name, hname, h⟩ := exists_of_bind_eq_ok h
  rw [hs.links] at h
  obtain rfl := Except.ok.inj h
  have hd : Table.Distinct [(modulesKey, Value.table [(crate, name)])] :=
    List.pairwise_singleton _ _
  refine ⟨name, hname, ?_⟩
  change Table.find? (fill (Table.putNew s.shared modulesKey (.table []))
    [(modulesKey, .table [(crate, name)])]) modulesKey = _
  rw [find?_fill hd, Table.find?, if_pos hself, hknown]
  refine congrArg some ((filled_table _ _).trans ?_)
  rw [fill, hnew]
  dsimp only
  rw [fill, Table.put_of_find?_none hnew]

/-- Inheriting from one more dependency. -/
theorem Identified.inheritFrom {done : Table Settings} {now : Settings} {crate : Scalar}
    (h : Identified own done now) (hi : Inherited own done now) (hd : d.Plain)
    (hnew : ∀ e ∈ done, e.1.same crate = false) (hf : inheritFrom own now crate d = .ok s') :
    Identified own (done ++ [(crate, d)]) s' := by
  have hplain : Plain { now with links := #[], shared := fill now.shared (inheritable d.shared) } :=
    ⟨rfl, keyed_fill hi.plain.shared (hd.shared.filter _), hi.plain.bindings, hi.plain.tables⟩
  have hkeys : (Table.keys d.bindings).Pairwise fun a b => a.same b = false :=
    List.pairwise_map.mpr hd.bindings.distinct
  rw [Settings.inheritFrom, inheritShared_plain hi.plain hd, ok_bind] at hf
  obtain ⟨mid, hl, hf⟩ := exists_of_bind_eq_ok hf
  obtain ⟨last, hr, hf⟩ := exists_of_bind_eq_ok hf
  obtain rfl := Except.ok.inj hf
  obtain ⟨hmid, hshared, -⟩ := inheritLanguages_spec hplain hd hkeys hl
  have hfind {key : Scalar} (hk : isIdentityKey key = true) :
      Table.find? mid.shared key = Table.find? now.shared key := by
    rw [hshared]
    exact find?_fill_inheritable hk hd.shared
  refine ⟨fun key hk hother => ?_, fun hnone => ?_⟩
  · rw [← h.kept key hk hother, ← hfind hk]
    exact recordModule_others hmid hr hother
  · obtain ⟨modules, hrecorded, hmodules⟩ := h.recorded hnone
    have hlacks : Table.find? modules crate = none := by
      rw [Table.find?_eq_none_iff]
      intro m hm
      obtain ⟨e, he, hkey, -⟩ := (mem_recordedModules hrecorded).mp hm
      rw [hkey]
      exact hnew e he
    rw [← hfind isIdentityKey_modulesKey] at hmodules
    obtain ⟨name, hname, hlast⟩ := recordModule_modules hmid hmodules hlacks hr
    refine ⟨modules ++ [(crate, name)], ?_, congrArg (fun v => v.getD (.table [])) hlast⟩
    rw [recordedModules] at hrecorded ⊢
    rw [List.mapM_append, hrecorded, List.mapM_cons, List.mapM_nil, hname]
    rfl

/-- Inheriting from dependencies, one after the other. -/
theorem Identified.foldlM {done dependencies : Table Settings} {now : Settings}
    (h : Identified own done now) (hi : Inherited own done now)
    (hd : ∀ e ∈ dependencies, e.2.Plain) (hdistinct : Table.Distinct (done ++ dependencies))
    (hf : dependencies.foldlM (fun now e => Settings.inheritFrom own now e.1 e.2) now = .ok s') :
    Identified own (done ++ dependencies) s' := by
  induction dependencies generalizing done now with
  | nil =>
    obtain rfl := Except.ok.inj hf
    rw [List.append_nil]
    exact h
  | cons e rest ih =>
    rw [List.foldlM_cons] at hf
    obtain ⟨next, hn, hf⟩ := exists_of_bind_eq_ok hf
    have hplain := hd e List.mem_cons_self
    have hnew : ∀ x ∈ done, x.1.same e.1 = false := fun x hx =>
      (List.pairwise_append.mp hdistinct).2.2 x hx e List.mem_cons_self
    rw [List.append_cons] at hdistinct ⊢
    exact ih (h.inheritFrom hi hplain hnew hn) (hi.inheritFrom hplain hn)
      (fun e he => hd e (List.mem_cons_of_mem _ he)) hdistinct hf

/-- A crate that inherits keeps its identity keys and records the modules of its dependencies. -/
theorem identified_of_inherit (hs : s.Plain) {dependencies : Table Settings}
    (ht : Table.TextKeyed dependencies) (hdistinct : Table.Distinct dependencies)
    (hd : ∀ e ∈ dependencies, e.2.Plain) (h : s.inherit dependencies = .ok s') :
    Identified s (sortOn Prod.fst dependencies) s' := by
  have hi : Inherited s [] { s with inherited := true } :=
    ⟨⟨hs.links, hs.shared, hs.bindings, hs.tables⟩, Keeps.refl _, fun _ => Keeps.refl _,
      fun _ => rfl⟩
  have hstart : Identified s [] { s with inherited := true } :=
    ⟨fun _ _ _ => rfl, fun hnone => ⟨[], rfl, congrArg (fun v => v.getD (.table [])) hnone⟩⟩
  have hperm := sortOn_perm ht.worded
  have hsorted : ∀ e ∈ sortOn Prod.fst dependencies, e.2.Plain := fun e he =>
    hd e (hperm.mem_iff.mp he)
  rw [Settings.inherit, sortByKey_of_words ht.worded] at h
  split at h
  · cases h
  · exact hstart.foldlM hi hsorted (hdistinct.perm hperm.symm) (eq_ok_of_mapError h)

/-- What a language sees under an identity key is as it was before a crate inherited, apart from the
modules of other crates. -/
theorem find?_overlay_of_inherit (hs : s.Plain) {dependencies : Table Settings}
    (ht : Table.TextKeyed dependencies) (hdistinct : Table.Distinct dependencies)
    (hd : ∀ e ∈ dependencies, e.2.Plain) (h : s.inherit dependencies = .ok s') (language : Scalar)
    {key : Scalar} (hk : isIdentityKey key = true) (hother : modulesKey.same key = false) :
    Table.find? (overlay s'.shared (s'.languageTable language)) key =
      Table.find? (overlay s.shared (s.languageTable language)) key := by
  have hi := inherited_of_inherit hs ht hd h
  have hsorted : ∀ e ∈ sortOn Prod.fst dependencies, e.2.Plain := fun e he =>
    hd e ((mem_sortOn ht.worded).mp he)
  rw [find?_overlay (hi.plain.keyed_languageTable language).distinct,
    find?_overlay (hs.keyed_languageTable language).distinct, hi.language,
    find?_filledLanguageTable hk hsorted,
    (identified_of_inherit hs ht hdistinct hd h).kept key hk hother]

/-- What a language sees of the modules of other crates, if the crate names none itself: those of
its dependencies. -/
theorem modules_of_inherit (hs : s.Plain) {dependencies : Table Settings}
    (ht : Table.TextKeyed dependencies) (hdistinct : Table.Distinct dependencies)
    (hd : ∀ e ∈ dependencies, e.2.Plain) (h : s.inherit dependencies = .ok s') (language : Scalar)
    (hshared : Table.find? s.shared modulesKey = none)
    (htable : Table.find? (s.languageTable language) modulesKey = none) :
    ∃ modules, recordedModules (sortOn Prod.fst dependencies) = .ok modules ∧
      (Table.find? (overlay s'.shared (s'.languageTable language)) modulesKey).getD (.table []) =
        .table modules := by
  have hi := inherited_of_inherit hs ht hd h
  have hsorted : ∀ e ∈ sortOn Prod.fst dependencies, e.2.Plain := fun e he =>
    hd e ((mem_sortOn ht.worded).mp he)
  rw [find?_overlay (hi.plain.keyed_languageTable language).distinct, hi.language,
    find?_filledLanguageTable isIdentityKey_modulesKey hsorted, htable]
  exact (identified_of_inherit hs ht hdistinct hd h).recorded hshared

end BindGen.Settings

import BindGen.Settings.Inheritance

/-!
# Updates

What becomes of the settings of a crate after they are loaded: the names of a dynamic library and of
an interface fill keys that are unset, and the settings of dependencies fill gaps, once. An update
that fails partway leaves what it did up to then, and a later one goes on from there. If it succeeds
it is `Settings.inherit`.
-/

namespace BindGen

/-- How far work on data came, and the fault that ended it early. -/
structure Progress (σ : Type) where
  reached : σ
  fault : Option Fault

namespace Progress

variable {σ τ α : Type}

/-- Work that came to its end. -/
def done (s : σ) : Progress σ := ⟨s, none⟩

/-- More work, unless there was a fault. -/
def andThen (p : Progress σ) (next : σ → Progress σ) : Progress σ :=
  match p.fault with
  | none => next p.reached
  | some _ => p

/-- Work for one item after the other, up to the first fault. -/
def through (work : σ → α → Progress σ) : List α → σ → Progress σ
  | [], s => done s
  | a :: rest, s => (work s a).andThen (through work rest)

/-- Work on a part of larger data. -/
def map (f : σ → τ) (p : Progress σ) : Progress τ := ⟨f p.reached, p.fault⟩

/-- What the work came to, or the fault. -/
def result (p : Progress σ) : Except Fault σ :=
  match p.fault with
  | none => .ok p.reached
  | some f => .error f

@[simp] private theorem result_map (f : σ → τ) (p : Progress σ) :
    (p.map f).result = p.result.map f := by
  obtain ⟨s, fault⟩ := p
  cases fault <;> rfl

@[simp] private theorem result_andThen (p : Progress σ) (next : σ → Progress σ) :
    (p.andThen next).result = p.result >>= fun s => (next s).result := by
  obtain ⟨s, fault⟩ := p
  cases fault <;> rfl

private theorem result_through {work : σ → α → Progress σ} {step : σ → α → Except Fault σ}
    (h : ∀ s a, (work s a).result = step s a) (as : List α) (s : σ) :
    (through work as s).result = as.foldlM step s := by
  induction as generalizing s with
  | nil => rfl
  | cons a rest ih => simp only [through, result_andThen, h, ih, List.foldlM_cons]

end Progress

namespace Settings

/-! ## Filling -/

/-- What one entry of the source leads to. -/
inductive Filling where
  /-- the entry is dealt with -/
  | settled (links : Links)
  /-- entries are to be filled into the table under a label -/
  | within (links : Links) (label : Nat) (entries : Table Value)

/-- Fills one entry of the source into the table under a label. Models `_fill`. -/
def fillStep (source : Links) (label : Nat) (links : Links) (entry : Scalar × Value) : Filling :=
  let t := (links.table? (.link label .table)).getD []
  match Table.find? t entry.1 with
  | none => .settled (putCopy source label t entry.1 entry.2 links)
  | some old =>
    match links.table? old, source.table? entry.2 with
    | some _, some inner =>
      let (links, place) := labelOf label t entry.1 old links
      .within links place inner
    | _, _ => .settled links

/-- Fills entries of the source into the table under a label, to a depth. Models `_fill`. -/
def fillUnder (source : Links) : Nat → Nat → Table Value → Links → Progress Links
  | 0, _, _, links => ⟨links, some .endless⟩
  | depth + 1, label, entries, links =>
    Progress.through (fun links entry =>
      match fillStep source label links entry with
      | .settled links => .done links
      | .within links place inner => fillUnder source depth place inner links) entries links

/-- Fills the target with the entries of the source that it lacks. Models `_fill`. -/
def fillFrom (target source : Linked) : Progress Linked :=
  if target.1.isEmpty && source.1.isEmpty then .done (#[], fill target.2 source.2)
  else
    let label := target.1.size
    (fillUnder source.1 mergeDepth label source.2 (target.1.push (.table target.2))).map
      fun links => (links, (links.table? (.link label .table)).getD [])

private theorem result_fillUnder (source : Links) (depth label : Nat) (entries : Table Value)
    (links : Links) : (fillUnder source depth label entries links).result =
      mergeAt .keep source depth label entries links := by
  induction depth generalizing label entries links with
  | zero => rfl
  | succ depth ih =>
    rw [fillUnder, mergeAt]
    refine Progress.result_through (fun links entry => ?_) entries links
    obtain ⟨k, v⟩ := entry
    simp only [fillStep]
    cases Table.find? ((links.table? (.link label .table)).getD []) k with
    | none => rfl
    | some old =>
      dsimp only
      cases links.table? old with
      | none => rfl
      | some inner =>
        cases source.table? v with
        | none => rfl
        | some entries => exact ih _ _ _

@[simp] private theorem result_fillFrom (target source : Linked) :
    (fillFrom target source).result = fillLinked target source := by
  rw [fillFrom, fillLinked]
  split
  · rfl
  · rw [Progress.result_map, result_fillUnder, mergeLinked]
    rfl

/-! ## Taking the settings of dependencies -/

/-- The settings with other shared keys. -/
def withShared (s : Settings) (t : Linked) : Settings := { s with links := t.1, shared := t.2 }

/-- The settings with other tables of languages. -/
def withBindings (s : Settings) (t : Linked) : Settings := { s with links := t.1, bindings := t.2 }

/-- Takes shared keys of a dependency. Models `Config.update_from_dependency_configs`. -/
def takeShared (s dependency : Settings) : Progress Settings :=
  (fillFrom (s.links, s.shared) (dependency.links, inheritable dependency.shared)).map s.withShared

/-- Takes the keys of a dependency for a language. Models
`Config.update_from_dependency_configs`. -/
def takeLanguage (own dependency s : Settings) (language : Scalar) : Progress Settings :=
  let entries := inheritedTable own language (dependency.languageTable language)
  if entries.isEmpty then .done s
  else
    (fillFrom (s.links, Table.putNew s.bindings language (.table []))
      (dependency.links, [(language, .table entries)])).map s.withBindings

/-- Takes the module of a dependency, unless something that is no table stands in the way. Models
`Config.update_from_dependency_configs`. -/
def takeModule (s : Settings) (crate : Scalar) (dependency : Settings) : Progress Settings :=
  let s := s.setNew "external_modules" (.table [])
  if ((Table.find? s.shared "external_modules").bind s.links.table?).isNone then .done s
  else
    match recordedName crate dependency with
    | .error f => ⟨s, some f⟩
    | .ok name =>
      (fillFrom (s.links, s.shared)
        (#[], [("external_modules", .table [(crate, name)])])).map s.withShared

/-- Takes the settings of one dependency, where `own` are the settings that the crate started with.
Models `Config.update_from_dependency_configs`. -/
def takeFrom (own s : Settings) (e : Scalar × Settings) : Progress Settings :=
  (takeShared s e.2).andThen fun s =>
    (Progress.through (takeLanguage own e.2) (Table.keys e.2.bindings) s).andThen fun s =>
      (takeModule s e.1 e.2).andThen fun s =>
        .done { s with inheritedFrom := s.inheritedFrom ++ [e.1] }

/-- Takes the settings of dependencies, given by crate, and tells why this failed. Models
`Config.update_from_dependency_configs`. -/
def takeAll (s : Settings) (dependencies : Table Settings) : Settings × Option SettingsError :=
  if s.inherited then (s, some .alreadyInherited)
  else
    let start := { s with inherited := true }
    match sortByKey Prod.fst dependencies with
    | .error f => (start, some (.fault f))
    | .ok sorted =>
      let p := Progress.through (takeFrom s) sorted start
      (p.reached, p.fault.map .fault)

@[simp] private theorem result_takeShared (s dependency : Settings) :
    (takeShared s dependency).result = inheritShared s dependency := by
  rw [takeShared, Progress.result_map, result_fillFrom, inheritShared]
  rfl

@[simp] private theorem result_takeLanguage (own dependency s : Settings) (language : Scalar) :
    (takeLanguage own dependency s language).result =
      inheritLanguage own dependency s language := by
  rw [takeLanguage, inheritLanguage]
  dsimp only
  split
  · rfl
  · rw [Progress.result_map, result_fillFrom]
    rfl

@[simp] private theorem result_takeModule (s : Settings) (crate : Scalar) (dependency : Settings) :
    (takeModule s crate dependency).result = recordModule s crate dependency := by
  rw [recordModule]
  dsimp only
  split
  · next hnone =>
    simp only [takeModule, setNew, hnone, if_true]
    rfl
  · next hsome =>
    simp only [takeModule, setNew, hsome]
    cases recordedName crate dependency with
    | error f => rfl
    | ok name =>
      change (Progress.map _ (fillFrom _ _)).result = _
      rw [Progress.result_map, result_fillFrom]
      rfl

@[simp] private theorem result_takeFrom (own s : Settings) (e : Scalar × Settings) :
    (takeFrom own s e).result = inheritFrom own s e.1 e.2 := by
  simp only [takeFrom, inheritFrom, Progress.result_andThen, result_takeShared, result_takeModule,
    Progress.result_through (result_takeLanguage own e.2)]
  rfl

/-- Where taking settings succeeds it is inheritance, and it fails as inheritance does. -/
theorem inherit_eq_takeAll (s : Settings) (dependencies : Table Settings) :
    s.inherit dependencies =
      match (s.takeAll dependencies).2 with
      | none => .ok (s.takeAll dependencies).1
      | some e => .error e := by
  rw [inherit, takeAll]
  cases s.inherited with
  | true => rfl
  | false =>
    cases sortByKey Prod.fst dependencies with
    | error f => rfl
    | ok sorted =>
      have hrun := Progress.result_through (result_takeFrom s) sorted { s with inherited := true }
      change Except.mapError _ (sorted.foldlM (fun now e => inheritFrom s now e.1 e.2) _) = _
      rw [← hrun, Progress.result]
      dsimp only
      cases (Progress.through (takeFrom s) sorted { s with inherited := true }).fault <;> rfl

/-! ## Sequences of updates -/

/-- An update of settings. -/
inductive Update where
  | cdylibName (name : String)
  | names (crate namespaceName : Value)
  | dependencies (settings : Table Settings)

/-- The settings after an update, and why it failed. -/
def update (s : Settings) : Update → Settings × Option SettingsError
  | .cdylibName name => (s.fromCdylibName name, none)
  | .names crate namespaceName => (s.fromNames crate namespaceName, none)
  | .dependencies settings => s.takeAll settings

/-- The settings after updates, whether these fail or not. -/
def after (s : Settings) (updates : List Update) : Settings :=
  updates.foldl (fun s u => (s.update u).1) s

end Settings
end BindGen

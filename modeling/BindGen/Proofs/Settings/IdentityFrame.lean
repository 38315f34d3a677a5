import BindGen.Proofs.Settings.Precedence

/-!
# Names that stay with a crate

The keys that name a crate itself flow to no other crate. Taking the settings of dependencies leaves
them as they are, whether it succeeds or not, in the shared settings and in the table of each
language that stands alone. A language gets a table of its own only for a key that names no crate.
The modules of other crates are extended by those of the dependencies, and nothing recorded there
changes.
-/

namespace BindGen

namespace Progress

variable {σ α : Type} {work : σ → α → Progress σ}

/-- More work that came to its end. -/
theorem of_andThen {p : Progress σ} {next : σ → Progress σ} (h : (p.andThen next).fault = none) :
    p.fault = none ∧ p.andThen next = next p.reached := by
  rw [andThen] at h ⊢
  cases hfault : p.fault with
  | none => exact ⟨rfl, rfl⟩
  | some f =>
    rw [hfault] at h
    cases hfault.symm.trans h

/-- Work for one item after the other that came to its end did so for each of them. -/
theorem through_done {P Q : σ → Prop} {R : α → Prop} {as : List α}
    (hstep : ∀ a ∈ as, ∀ s, P s → P (work s a).reached ∧
      ((work s a).fault = none → Q (work s a).reached ∧ R a))
    {s : σ} (hs : P s) (hdone : (through work as s).fault = none) :
    (∀ a ∈ as, R a) ∧ (as ≠ [] → Q (through work as s).reached) := by
  induction as generalizing s with
  | nil => exact ⟨List.forall_mem_nil R, fun hne => absurd rfl hne⟩
  | cons a as ih =>
    obtain ⟨hp, hq⟩ := hstep a List.mem_cons_self s hs
    rw [through] at hdone ⊢
    obtain ⟨hfirst, hnext⟩ := of_andThen hdone
    rw [hnext] at hdone ⊢
    obtain ⟨hr, hlast⟩ := ih (fun b hb => hstep b (List.mem_cons_of_mem a hb)) hp hdone
    refine ⟨List.forall_mem_cons.mpr ⟨(hq hfirst).2, hr⟩, fun _ => ?_⟩
    cases as with
    | nil => exact (hq hfirst).1
    | cons b bs => exact hlast (List.cons_ne_nil b bs)

end Progress

namespace Settings

open Value Links

variable {s s' own d : Settings} {dependencies : Table Settings} {key language : Scalar} {v : Value}

/-! ## Identity keys -/

/-- What taking settings leaves, and what it leaves undone, holds after any attempt to take them. -/
theorem reached_takeAll {Q : Settings → Prop} (ht : Table.TextKeyed dependencies) (hs : Q s)
    (hrun : Q (Progress.through (takeFrom s) (sortOn Prod.fst dependencies)
      { s with inherited := true }).reached) : Q (s.takeAll dependencies).1 := by
  rw [takeAll, sortByKey_of_words ht.worded]
  split
  · exact hs
  · exact hrun

/-- Shared identity keys are as before, apart from the modules of other crates. -/
theorem find?_shared_takeAll (hs : s.Closed) (ht : Table.TextKeyed dependencies)
    (hd : ∀ e ∈ dependencies, e.2.Closed ∧ e.2.DistinctKeys) (hk : isIdentityKey key = true)
    (hother : modulesKey.same key = false) :
    Table.find? (s.takeAll dependencies).1.shared key = Table.find? s.shared key := by
  refine reached_takeAll (Q := fun now => Table.find? now.shared key = Table.find? s.shared key) ht
    rfl ?_
  obtain ⟨-, habsent, -⟩ := Takes.through (takeFrom s) Settings.shared key (fun _ => none)
    Settings.Closed hs.start fun e he now hnow => by
      obtain ⟨hclosed, hkeys⟩ := hd e ((mem_sortOn ht.worded).mp he)
      have htakes := takes_shared_takeFrom s hnow hclosed hkeys.shared hother
      rw [find?_inheritable hk] at htakes
      exact ⟨(growsTo_takeFrom s hclosed hnow).closed, htakes⟩
  exact habsent fun _ _ => rfl

/-- The identity keys in a table that stands alone are as before. -/
theorem find?_languageTable_takeAll (hs : s.Closed) (ht : Table.TextKeyed dependencies)
    (hd : ∀ e ∈ dependencies, e.2.Closed ∧ e.2.DistinctKeys) (halone : s.TableAlone language)
    (hk : isIdentityKey key = true) :
    Table.find? ((s.takeAll dependencies).1.languageTable language) key =
      Table.find? (s.languageTable language) key := by
  refine reached_takeAll (Q := fun now => Table.find? (now.languageTable language) key =
    Table.find? (s.languageTable language) key) ht rfl ?_
  obtain ⟨-, habsent, -⟩ := Takes.through (takeFrom s) (languageTable · language) key
    (fun _ => none) (Ready language) ⟨hs.start, halone⟩ fun e he now hnow => by
      obtain ⟨hclosed, hkeys⟩ := hd e ((mem_sortOn ht.worded).mp he)
      have htable := takesTable_takeFrom hnow s hclosed hkeys
      have htakes := htable.takes key
      rw [find?_inheritedTable, find?_inheritable hk, ite_self] at htakes
      exact ⟨htable.ready, htakes⟩
  exact habsent fun _ _ => rfl

/-! ## New tables -/

/-- A dependency has a key for a language that names no crate and that a crate does not set for all
languages. -/
def Offers (own d : Settings) (language : Scalar) : Prop :=
  ∃ key, Table.find? (d.languageTable language) key ≠ none ∧ isIdentityKey key = false ∧
    Table.find? own.shared key = none

private theorem offers_of_inheritedTable (hown : Table.find? own.bindings language = none)
    (h : inheritedTable own language (d.languageTable language) ≠ []) : Offers own d language := by
  obtain ⟨⟨k, v⟩, hmem⟩ := List.exists_mem_of_ne_nil _ h
  obtain ⟨hinherit, htaken⟩ := List.mem_filter.mp hmem
  obtain ⟨htable, hidentity⟩ := List.mem_filter.mp hinherit
  refine ⟨k, fun hnone => ?_, by simpa using hidentity, ?_⟩
  · have hne := Table.find?_eq_none_iff.mp hnone (k, v) htable
    rw [Scalar.same_refl] at hne
    cases hne
  · have hempty : own.languageTable language = [] := by
      rw [languageTable_eq, slot, hown]
      rfl
    simpa [hempty, Table.has] using htaken

/-- A language has no table, unless there was a key to take for it. -/
structure Bare (own d : Settings) (language : Scalar) (now : Settings) : Prop where
  closed : now.Closed
  none_or : Table.find? now.bindings language = none ∨ Offers own d language

/-- Taking keys for a language makes a table for it only. -/
theorem bare_takeLanguage (h : Bare own d language s) (hd : d.Closed)
    (hown : Table.find? own.bindings language = none) (other : Scalar) :
    Bare own d language (takeLanguage own d s other).reached := by
  have hs := h.closed
  refine ⟨(growsTo_takeLanguage own hd other hs).closed, ?_⟩
  rcases h.none_or with hnone | hoffers
  swap
  · exact .inr hoffers
  rw [takeLanguage]
  split
  · exact .inl hnone
  · next hentries =>
    cases hsame : other.same language with
    | true =>
      refine .inr (offers_of_inheritedTable hown fun hempty => hentries ?_)
      rw [inheritedTable_congr hsame, languageTable_congr hsame, hempty]
      rfl
    | false =>
      refine .inl ?_
      have hnew : Table.find? (Table.putNew s.bindings other (.table [])) language = none := by
        rw [find?_putNew, hnone, hsame]
        rfl
      obtain ⟨habsent, -⟩ := takes_fillFrom (s.links, Table.putNew s.bindings other (.table []))
        (d.links, [(other, .table (inheritedTable own other (d.languageTable other)))]) hs.links
        (hs.bindings.putNew other .empty) hd.links
        (.single other (bounded_inheritedTable hd own other)) (List.pairwise_singleton _ _)
      refine (habsent language ?_).trans hnew
      rw [Table.find?, hsame, if_neg Bool.false_ne_true, Table.find?_nil]

private theorem bare_takeModule (h : Bare own d language s) (crate : Scalar) :
    Bare own d language (takeModule s crate d).reached := by
  refine ⟨(growsTo_takeModule crate d h.closed).closed, ?_⟩
  have hbindings : (takeModule s crate d).reached.bindings = s.bindings := by
    rw [takeModule]
    split
    · rfl
    · split <;> rfl
  rw [hbindings]
  exact h.none_or

private theorem bare_takeFrom {e : Scalar × Settings} (h : Bare own e.2 language s)
    (hd : e.2.Closed)
    (hown : Table.find? own.bindings language = none) :
    Bare own e.2 language (takeFrom own s e).reached := by
  have hshared : Bare own e.2 language (takeShared s e.2).reached :=
    ⟨(growsTo_takeShared h.closed hd).closed, h.none_or⟩
  refine Progress.reached_andThen (Q := Bare own e.2 language) hshared fun s₁ h₁ => ?_
  refine Progress.reached_andThen (Q := Bare own e.2 language) ?_ fun s₂ h₂ => ?_
  · exact Progress.through_keeps (Q := Bare own e.2 language)
      (fun other _ now hnow => bare_takeLanguage hnow hd hown other) h₁
  · refine Progress.reached_andThen (Q := Bare own e.2 language) (bare_takeModule h₂ e.1) ?_
    exact fun s₃ h₃ => ⟨⟨h₃.closed.links, h₃.closed.shared, h₃.closed.bindings⟩, h₃.none_or⟩

/-- A language gets a table only if a dependency has a key for it that may be taken. -/
theorem find?_bindings_takeAll (hs : s.Closed) (ht : Table.TextKeyed dependencies)
    (hd : ∀ e ∈ dependencies, e.2.Closed) (hnone : Table.find? s.bindings language = none) :
    Table.find? (s.takeAll dependencies).1.bindings language = none ∨
      ∃ e ∈ dependencies, Offers s e.2 language := by
  refine reached_takeAll (Q := fun now => Table.find? now.bindings language = none ∨
    ∃ e ∈ dependencies, Offers s e.2 language) ht (.inl hnone) ?_
  refine (Progress.through_keeps (Q := fun now => Settings.Closed now ∧
    (Table.find? now.bindings language = none ∨ ∃ e ∈ dependencies, Offers s e.2 language))
    (fun e he now hnow => ?_) ⟨hs.start, .inl hnone⟩).2
  have he : e ∈ dependencies := (mem_sortOn ht.worded).mp he
  refine ⟨(growsTo_takeFrom s (hd e he) hnow.1).closed, ?_⟩
  rcases hnow.2 with hnow' | hoffers
  · rcases (bare_takeFrom ⟨hnow.1, .inl hnow'⟩ (hd e he) hnone).none_or with hkept | hoffers
    · exact .inl hkept
    · exact .inr ⟨e, he, hoffers⟩
  · exact .inr hoffers

/-! ## Modules of other crates -/

/-- The modules of other crates. -/
def modules (s : Settings) : Table Value := (slot s.links s.shared modulesKey).getD []

/-- What is to hold the modules of other crates, if there is anything, is a table that stands
alone. -/
def ModulesAlone (s : Settings) : Prop := Stands s.links s.shared modulesKey s.bindings

/-- In settings of a file without anchors a table of modules stands alone. -/
theorem Plain.modulesAlone (h : s.Plain) (hs : s.Closed)
    (htable : ∀ v, Table.find? s.shared modulesKey = some v → v.isTable = true) : s.ModulesAlone := by
  refine stands_of_isTable hs.links hs.shared hs.bindings ?_ htable
  rw [slot]
  cases hfind : Table.find? s.shared modulesKey with
  | none => exact Table.distinct_nil
  | some v =>
    obtain ⟨t, rfl⟩ := eq_table_of_isTable (htable v hfind)
    exact (h.shared.of_find? hfind).distinct

/-- Settings in which the table of modules stands alone. -/
structure ModulesReady (s : Settings) : Prop where
  closed : s.Closed
  alone : s.ModulesAlone

/-- Work that fills entries into the table of modules. -/
abbrev TakesModules : Table Value → Settings → Progress Settings → Prop :=
  TakesInto modules ModulesReady

/-- Work that leaves the table of modules as it is. -/
theorem takesModules_of_slot {p : Progress Settings} (h : s.GrowsTo p.reached)
    (halone : p.reached.ModulesAlone)
    (hslot : slot p.reached.links p.reached.shared modulesKey = slot s.links s.shared modulesKey) :
    TakesModules [] s p :=
  .of_eq ⟨h.closed, halone⟩ (congrArg (Option.getD · []) hslot)

private theorem modulesKey_same_of_inheritable {t : Table Value} {e : Scalar × Value}
    (h : e ∈ inheritable t) : modulesKey.same e.1 = false := by
  obtain ⟨-, hnot⟩ := List.mem_filter.mp h
  exact modulesKey_same_of_false (by simpa using hnot)

/-- Taking shared keys leaves the modules as they are. -/
theorem takesModules_takeShared (h : ModulesReady s) (hd : d.Closed) (hk : d.shared.Distinct) :
    TakesModules [] s (takeShared s d) := by
  have hs := h.closed
  obtain ⟨halone, hslot⟩ := h.alone.fillRest hs.links hs.shared hs.bindings hd.links
    (hd.shared.filter _) (hk.filter _) fun _ => modulesKey_same_of_inheritable
  exact takesModules_of_slot (growsTo_takeShared hs hd) halone hslot

/-- Taking keys for a language leaves the modules as they are. -/
theorem takesModules_takeLanguage (h : ModulesReady s) (hd : d.Closed) (own : Settings)
    (other : Scalar) : TakesModules [] s (takeLanguage own d s other) := by
  have hs := h.closed
  have hgrows := growsTo_takeLanguage own hd other hs
  revert hgrows
  rw [takeLanguage]
  split
  · exact fun hgrows => takesModules_of_slot hgrows h.alone rfl
  · obtain ⟨halone, hslot⟩ := (h.alone.putNew_others other .empty).fillOthers hs.links hs.shared
      (hs.bindings.putNew other .empty) hd.links (.single other (bounded_inheritedTable hd own other))
      (List.pairwise_singleton _ _)
    exact fun hgrows => takesModules_of_slot hgrows halone hslot

/-- The entry under which the module of a dependency is recorded. -/
def recordedEntry (e : Scalar × Settings) : Table Value :=
  match recordedName e.1 e.2 with
  | .ok name => [(e.1, name)]
  | .error _ => []

/-- Recording the module of a dependency adds its entry, if there is a name for the module. -/
theorem takesModules_takeModule (h : ModulesReady s) (e : Scalar × Settings) :
    TakesModules (recordedEntry e) s (takeModule s e.1 e.2) ∧
      ((takeModule s e.1 e.2).fault = none →
        slot (takeModule s e.1 e.2).reached.links (takeModule s e.1 e.2).reached.shared modulesKey ≠
          none ∧ ∃ name, recordedName e.1 e.2 = .ok name) := by
  obtain ⟨hset, hslot⟩ := h.alone.putNew_self
  have hclosed : (s.setNew "external_modules" (.table [])).Closed :=
    (growsTo_setNew h.closed _ .empty).closed
  have hgrows := growsTo_takeModule e.1 e.2 h.closed
  revert hgrows
  rw [takeModule, recordedEntry]
  split
  · next hnone =>
    -- the table is there by now
    have hsome : (slot s.links (Table.putNew s.shared modulesKey (.table [])) modulesKey).isNone =
        true := hnone
    rw [hslot] at hsome
    cases hsome
  · cases hname : recordedName e.1 e.2 with
    | error f =>
      refine fun hgrows =>
        ⟨.of_eq ⟨hgrows.closed, hset⟩ ?_, fun hdone => absurd hdone (Option.some_ne_none f)⟩
      show (slot s.links (Table.putNew s.shared modulesKey (.table [])) modulesKey).getD [] = s.modules
      rw [hslot]
      rfl
    | ok name =>
      obtain ⟨halone, t', hslot', hothers, hwhole⟩ := hset.fillSlot hclosed.links hclosed.shared
        hclosed.bindings hslot closed_empty (.single e.1 (bounded_recordedName hname))
        (List.pairwise_singleton _ _)
      refine fun hgrows => ⟨⟨⟨hgrows.closed, halone⟩, fun key => ?_⟩, fun _ => ⟨?_, name, rfl⟩⟩
      · have hview : Settings.modules (Progress.map
            (s.setNew "external_modules" (.table [])).withShared _).reached = t' :=
          congrArg (Option.getD · []) hslot'
        have hfind := congrArg (Table.find? · key) hview
        exact ⟨fun hnone => hfind.trans (hothers key hnone),
          fun hdone hv => hfind.trans (hwhole hdone key hv)⟩
      · intro hnone
        cases hslot'.symm.trans hnone

/-- Taking the settings of a dependency records its module. -/
theorem takesModules_takeFrom (h : ModulesReady s) (own : Settings) {e : Scalar × Settings}
    (hd : e.2.Closed) (hk : e.2.DistinctKeys) :
    TakesModules (recordedEntry e) s (takeFrom own s e) ∧
      ((takeFrom own s e).fault = none →
        slot (takeFrom own s e).reached.links (takeFrom own s e).reached.shared modulesKey ≠ none ∧
          ∃ name, recordedName e.1 e.2 = .ok name) := by
  have hshared := takesModules_takeShared h hd hk.shared
  have hlanguages : TakesModules [] (takeShared s e.2).reached (Progress.through
      (takeLanguage own e.2) (Table.keys e.2.bindings) (takeShared s e.2).reached) :=
    .through_nothing (fun other _ now hnow => takesModules_takeLanguage hnow hd own other)
      hshared.ready
  obtain ⟨hmodule, hdone⟩ := takesModules_takeModule hlanguages.ready e
  have hclosed := hmodule.ready.closed
  refine ⟨hshared.after (hlanguages.after (hmodule.before ?_)), fun hnone => ?_⟩
  · exact .of_eq ⟨⟨hclosed.links, hclosed.shared, hclosed.bindings⟩, hmodule.ready.alone⟩ rfl
  · rw [takeFrom] at hnone ⊢
    obtain ⟨-, hfirst⟩ := Progress.of_andThen hnone
    rw [hfirst] at hnone ⊢
    obtain ⟨-, hsecond⟩ := Progress.of_andThen hnone
    rw [hsecond] at hnone ⊢
    obtain ⟨hfault, hthird⟩ := Progress.of_andThen hnone
    rw [hthird]
    exact hdone hfault

private theorem whole_recordedEntry {e : Scalar × Settings}
    (h : Table.find? (recordedEntry e) key = some v) :
    Whole v := by
  rw [recordedEntry] at h
  split at h
  · next name hname =>
    obtain ⟨k, hmem, -⟩ := Table.mem_of_find? h
    obtain ⟨-, rfl⟩ := Prod.mk.inj (List.mem_singleton.mp hmem)
    exact ⟨isTable_recordedName hname, bounded_recordedName hname⟩
  · cases h

/-- The entries of dependencies, one after the other, are the recorded modules. -/
theorem findSome?_recordedEntry {recorded : Table Value}
    (h : recordedModules dependencies = .ok recorded) (key : Scalar) :
    dependencies.findSome? (fun e => Table.find? (recordedEntry e) key) =
      Table.find? recorded key := by
  induction dependencies generalizing recorded with
  | nil =>
    obtain rfl := Except.ok.inj h
    rfl
  | cons e rest ih =>
    rw [recordedModules, List.mapM_cons] at h
    obtain ⟨entry, hentry, h⟩ := exists_of_bind_eq_ok h
    obtain ⟨others, hothers, h⟩ := exists_of_bind_eq_ok h
    obtain rfl := Except.ok.inj h
    obtain ⟨name, hname, rfl⟩ := exists_of_map_eq_ok hentry
    have hfirst : recordedEntry e = [(e.1, name)] := by
      rw [recordedEntry, hname]
    rw [List.findSome?_cons, ih hothers, hfirst]
    simp only [Table.find?]
    cases e.1.same key <;> rfl

/-- A crate whose modules stand in a table of their own, or that has none, has after taking the
settings of dependencies the entries that it had, and those of the dependencies under other keys. -/
theorem modules_takeAll (hs : s.Closed) (ht : Table.TextKeyed dependencies)
    (hd : ∀ e ∈ dependencies, e.2.Closed ∧ e.2.DistinctKeys) (halone : s.ModulesAlone)
    (hne : dependencies ≠ []) (hdone : (s.takeAll dependencies).2 = none) :
    ∃ recorded t, recordedModules (sortOn Prod.fst dependencies) = .ok recorded ∧
      slot (s.takeAll dependencies).1.links (s.takeAll dependencies).1.shared modulesKey = some t ∧
      ∀ key, Table.find? t key = (Table.find? s.modules key).or (Table.find? recorded key) := by
  have hinherit : s.inherit dependencies = .ok (s.takeAll dependencies).1 := by
    rw [inherit_eq_takeAll, hdone]
  obtain ⟨hfault, hreached⟩ := run_of_inherit ht hinherit
  rw [← hreached]
  have hready : ModulesReady { s with inherited := true } := ⟨hs.start, halone⟩
  have hmem : ∀ e ∈ sortOn Prod.fst dependencies, e ∈ dependencies := fun _ => (mem_sortOn ht.worded).mp
  have hfrom (e : Scalar × Settings) (he : e ∈ sortOn Prod.fst dependencies) (now : Settings)
      (hnow : ModulesReady now) :=
    takesModules_takeFrom hnow s (hd e (hmem e he)).1 (hd e (hmem e he)).2
  have htakes (key : Scalar) := (Takes.through (takeFrom s) modules key
    (fun e => Table.find? (recordedEntry e) key) ModulesReady hready fun e he now hnow =>
      ⟨(hfrom e he now hnow).1.ready, (hfrom e he now hnow).1.takes key⟩).2.2 hfault
        fun _ _ _ => whole_recordedEntry
  obtain ⟨hnames, htable⟩ := Progress.through_done (P := ModulesReady)
    (Q := fun now => slot now.links now.shared modulesKey ≠ none)
    (R := fun e => ∃ name, recordedName e.1 e.2 = .ok name)
    (fun e he now hnow => ⟨(hfrom e he now hnow).1.ready, (hfrom e he now hnow).2⟩) hready hfault
  obtain ⟨recorded, hrecorded⟩ : ∃ recorded, recordedModules (sortOn Prod.fst dependencies) =
      .ok recorded := mapM_isOk fun e he => isOk_map_iff.mpr (hnames e he)
  obtain ⟨t, ht⟩ := Option.ne_none_iff_exists'.mp
    (htable fun hnil => hne (List.perm_nil.mp (hnil ▸ (sortOn_perm ht.worded).symm)))
  refine ⟨recorded, t, hrecorded, ht, fun key => ?_⟩
  have hmodules : modules (Progress.through (takeFrom s) (sortOn Prod.fst dependencies)
      { s with inherited := true }).reached = t := by
    rw [modules, ht]
    rfl
  rw [← hmodules, htakes key, findSome?_recordedEntry hrecorded]
  rfl

/-! ## What stays with a crate -/

/-- What taking the settings of dependencies leaves of what names the crate itself. -/
structure IdentityKept (s : Settings) (dependencies : Table Settings) (s' : Settings) : Prop where
  /-- shared identity keys are as they were -/
  shared : ∀ key, isIdentityKey key = true → modulesKey.same key = false →
    Table.find? s'.shared key = Table.find? s.shared key
  /-- and so are those in tables of languages -/
  languages : ∀ language, s.TableAlone language → ∀ key, isIdentityKey key = true →
    Table.find? (s'.languageTable language) key = Table.find? (s.languageTable language) key
  /-- a language has a new table only for other keys -/
  tables : ∀ language, Table.find? s.bindings language = none →
    Table.find? s'.bindings language = none ∨ ∃ e ∈ dependencies, Offers s e.2 language
  /-- what is no table in the place of modules stays there -/
  modules : ∀ v, Table.find? s.shared modulesKey = some v → s.links.table? v = none →
    Table.find? s'.shared modulesKey = some v

/-- However far it comes, taking the settings of dependencies leaves what names the crate itself. It
is refused only for a reason. If it succeeds, the modules of the dependencies are recorded behind
those that were known, and these are as they were. -/
theorem takeAll_keeps_identity (hs : s.Closed) (ht : Table.TextKeyed dependencies)
    (hd : ∀ e ∈ dependencies, e.2.Closed ∧ e.2.DistinctKeys) :
    IdentityKept s dependencies (s.takeAll dependencies).1 ∧
    (∀ e, (s.takeAll dependencies).2 = some e → Refusal s dependencies e) ∧
    (s.ModulesAlone → dependencies ≠ [] → (s.takeAll dependencies).2 = none →
      ∃ recorded t, recordedModules (sortOn Prod.fst dependencies) = .ok recorded ∧
        slot (s.takeAll dependencies).1.links (s.takeAll dependencies).1.shared modulesKey = some t ∧
        ∀ key, Table.find? t key = (Table.find? s.modules key).or (Table.find? recorded key)) := by
  refine ⟨⟨fun key => find?_shared_takeAll hs ht hd,
    fun language halone key => find?_languageTable_takeAll hs ht hd halone,
    fun language => find?_bindings_takeAll hs ht fun e he => (hd e he).1, fun v hv hno => ?_⟩,
    fun e he => ?_, modules_takeAll hs ht hd⟩
  · have hclosed : Update.Closed (.dependencies dependencies) := fun e he => (hd e he).1
    have hkept := (growsTo_update hs hclosed).shared.kept
    have hat : s.links.at? (.table s.shared) [.key modulesKey] = some v := by
      rw [at?_cons]
      show (Table.find? s.shared modulesKey).bind _ = _
      rw [hv]
      rfl
    have hlater := (hkept.value _ v hat (by rwa [isTable_eq_false_iff, ← table?_eq])).1
    rw [at?_cons] at hlater
    obtain ⟨w, hw, hvw⟩ := Option.bind_eq_some_iff.mp hlater
    obtain rfl : w = v := Option.some.inj hvw
    exact hw
  · obtain ⟨hfails, -⟩ := ends_inherit (s := s) ht
    refine hfails e ?_
    rw [inherit_eq_takeAll, he]

-- A crate that has a name for its module.
private def named : Settings :=
  ⟨none, [(.text "module_name", .text "app")], [], #[], [], false⟩

-- A dependency with a name for its module and another one for its package in a language.
private def kernel : Settings :=
  ⟨none, [(.text "module_name", .text "kern"), (.text "style", .text "wide")],
    [(.text "kotlin", .table [(.text "package_name", .text "org.kern")])], #[], [], false⟩

/-- The names of a dependency are recorded, and otherwise they are not taken. -/
theorem takeAll_keeps_identity_named :
    let r := named.takeAll [(.text "core", kernel)]
    r.2 = none ∧ Table.find? r.1.shared (.text "module_name") = some (.text "app") ∧
      Table.find? r.1.bindings (.text "kotlin") = none ∧
      ∃ t, slot r.1.links r.1.shared modulesKey = some t ∧
        Table.find? t (.text "core") = some (.text "kern") := by
  have hs : named.Closed := ⟨closed_empty, Labels.single _ (.scalar _), .empty⟩
  have hkeyed : Keyed (.table kernel.shared) :=
    (keyed_single (.text "module_name") (.other rfl)).put (.text "style") (.other rfl)
  have hplain : kernel.Plain := by
    refine ⟨rfl, hkeyed, keyed_single _ (keyed_single _ (.other rfl)), ?_⟩
    simp [kernel, isTable]
  have hbounded : Bounded 0 (.table kernel.shared) :=
    (Labels.single (.text "module_name") (.scalar _)).put (.text "style") (.scalar _)
  have hd : ∀ e ∈ [(Scalar.text "core", kernel)], e.2.Closed ∧ e.2.DistinctKeys := by
    intro e he
    obtain rfl := List.mem_singleton.mp he
    exact ⟨⟨closed_empty, hbounded, Labels.single _ (Labels.single _ (.scalar _))⟩,
      hplain.distinctKeys⟩
  have ht : Table.TextKeyed [(Scalar.text "core", kernel)] := by simp [Table.TextKeyed]
  have halone : named.ModulesAlone :=
    Plain.modulesAlone
      ⟨rfl, keyed_single _ (.other rfl), Keyed.empty, fun _ h => absurd h List.not_mem_nil⟩ hs
      fun v hv => by cases hv
  obtain ⟨hkept, hrefused, hmodules⟩ := takeAll_keeps_identity hs ht hd
  have hdone : (named.takeAll [(.text "core", kernel)]).2 = none := by
    refine Option.eq_none_iff_forall_ne_some.mpr fun e he => ?_
    refine not_refusal rfl (List.forall_mem_singleton.mpr ⟨_, rfl⟩) ?_ e (hrefused e he)
    rintro (hlinks | ⟨e, he, hlinks⟩)
    · exact hlinks rfl
    · obtain rfl := List.mem_singleton.mp he
      exact hlinks rfl
  refine ⟨hdone, hkept.shared (.text "module_name") (by decide) (by decide), ?_, ?_⟩
  · refine (hkept.tables (.text "kotlin") rfl).resolve_right ?_
    rintro ⟨e, he, key, hfound, hk, -⟩
    obtain rfl := List.mem_singleton.mp he
    obtain ⟨v, hv⟩ := Option.ne_none_iff_exists'.mp hfound
    obtain ⟨k, hmem, hsame⟩ := Table.mem_of_find? hv
    obtain ⟨rfl, -⟩ := Prod.mk.inj (List.mem_singleton.mp hmem)
    rw [← isIdentityKey_congr hsame] at hk
    revert hk
    decide
  · obtain ⟨recorded, t, hrecorded, hslot, hfind⟩ := hmodules halone (List.cons_ne_nil _ _) hdone
    refine ⟨t, hslot, ?_⟩
    rw [sortOn_of_words ht.worded, List.mergeSort_singleton] at hrecorded
    obtain rfl := Except.ok.inj hrecorded
    exact hfind (.text "core")

end Settings
end BindGen

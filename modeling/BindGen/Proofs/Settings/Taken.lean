import BindGen.Proofs.Settings.Alone
import BindGen.Proofs.Settings.Identity

/-!
# What is taken from dependencies

Each step of taking the settings of a dependency fills certain entries into the shared settings,
into the table of one language, or into the table of modules. A language whose table stands alone
gets what is meant for it and nothing else, and its table stands alone afterwards.
-/

namespace BindGen.Settings

open Value Links

variable {s s' d own : Settings} {language key : Scalar} {entries t t' : Table Value} {v : Value}

/-! ## Filling a table that is looked at -/

/-- What work on settings makes of a key of a table in them, up to where it came, if it has at most
one new value for it: without a new value nothing happens to the key, and if the work came to its
end and the new value is whole, it is taken where there was none. -/
structure Takes (view : Settings → Table Value) (key : Scalar) (new : Option Value) (s : Settings)
    (p : Progress Settings) : Prop where
  absent : new = none → Table.find? (view p.reached) key = Table.find? (view s) key
  whole : p.fault = none → (∀ v, new = some v → Whole v) →
    Table.find? (view p.reached) key = (Table.find? (view s) key).or new

namespace Takes

variable {view : Settings → Table Value} {p : Progress Settings} {new : Option Value}
  {next : Settings → Progress Settings}

/-- A key under which there is what there was has taken nothing. -/
theorem of_find? (h : Table.find? (view p.reached) key = Table.find? (view s) key) :
    Takes view key none s p :=
  ⟨fun _ => h, fun _ _ => h.trans Option.or_none.symm⟩

private theorem of_eq (h : view p.reached = view s) :
    Takes view key none s p := .of_find? (by rw [h])

/-- What is taken after nothing was taken. -/
theorem after (h : Takes view key none s p)
    (hnext : Takes view key new p.reached (next p.reached)) :
    Takes view key new s (p.andThen next) := by
  have hsame := h.absent rfl
  rw [Progress.andThen]
  cases hfault : p.fault with
  | some f =>
    refine ⟨fun _ => hsame, fun hnone => ?_⟩
    exact absurd (hfault.symm.trans hnone) (Option.some_ne_none f)
  | none =>
    refine ⟨fun hnone => (hnext.absent hnone).trans hsame, fun hdone hv => ?_⟩
    rw [← hsame]
    exact hnext.whole hdone hv

/-- What is taken before nothing is taken. -/
theorem before (h : Takes view key new s p)
    (hnext : Takes view key none p.reached (next p.reached)) :
    Takes view key new s (p.andThen next) := by
  rw [Progress.andThen]
  cases hfault : p.fault with
  | some f => exact ⟨h.absent, fun hnone => absurd (hfault.symm.trans hnone) (Option.some_ne_none f)⟩
  | none =>
    refine ⟨fun hnone => (hnext.absent rfl).trans (h.absent hnone), fun _ hv => ?_⟩
    rw [hnext.absent rfl]
    exact h.whole hfault hv

/-- Work for one item after the other takes the first new value. -/
theorem through {α : Type} (work : Settings → α → Progress Settings)
    (view : Settings → Table Value) (key : Scalar) (new : α → Option Value)
    (Inv : Settings → Prop) {as : List α} (hs : Inv s)
    (hstep : ∀ a ∈ as, ∀ s, Inv s →
      Inv (work s a).reached ∧ Takes view key (new a) s (work s a)) :
    Inv (Progress.through work as s).reached ∧
    ((∀ a ∈ as, new a = none) →
      Table.find? (view (Progress.through work as s).reached) key = Table.find? (view s) key) ∧
    ((Progress.through work as s).fault = none →
      (∀ a ∈ as, ∀ v, new a = some v → Whole v) →
        Table.find? (view (Progress.through work as s).reached) key =
          (Table.find? (view s) key).or (as.findSome? new)) := by
  induction as generalizing s with
  | nil => exact ⟨hs, fun _ => rfl, fun _ _ => Option.or_none.symm⟩
  | cons a as ih =>
    obtain ⟨hinv, htakes⟩ := hstep a List.mem_cons_self s hs
    obtain ⟨hlast, habsent, hwhole⟩ :=
      ih hinv fun b hb => hstep b (List.mem_cons_of_mem a hb)
    rw [Progress.through, Progress.andThen]
    cases hfault : (work s a).fault with
    | some f =>
      refine ⟨hinv, fun hnone => htakes.absent (hnone a List.mem_cons_self), fun hdone => ?_⟩
      exact absurd (hfault.symm.trans hdone) (Option.some_ne_none f)
    | none =>
      refine ⟨hlast, fun hnone => ?_, fun hdone hnew => ?_⟩
      · rw [habsent fun b hb => hnone b (List.mem_cons_of_mem a hb)]
        exact htakes.absent (hnone a List.mem_cons_self)
      · rw [hwhole hdone fun b hb => hnew b (List.mem_cons_of_mem a hb),
          htakes.whole hfault (hnew a List.mem_cons_self), Option.or_assoc, List.findSome?_cons]
        cases new a <;> rfl

end Takes

/-- Work on settings with a property that fills entries into the table that is looked at. -/
structure TakesInto (view : Settings → Table Value) (Inv : Settings → Prop) (entries : Table Value)
    (s : Settings) (p : Progress Settings) : Prop where
  ready : Inv p.reached
  takes : ∀ key, Takes view key (Table.find? entries key) s p

namespace TakesInto

variable {view : Settings → Table Value} {Inv : Settings → Prop} {p : Progress Settings}
  {next : Settings → Progress Settings}

/-- A step that changes nothing of the view takes no entries. -/
theorem of_eq (hinv : Inv p.reached) (h : view p.reached = view s) : TakesInto view Inv [] s p :=
  ⟨hinv, fun _ => .of_eq h⟩

private theorem ready_andThen (h : Inv p.reached) (hnext : Inv (next p.reached).reached) :
    Inv (p.andThen next).reached := by
  rw [Progress.andThen]
  split
  · exact hnext
  · exact h

/-- A step that takes no entries may stand in front of one that takes some. -/
theorem after (h : TakesInto view Inv [] s p)
    (hnext : TakesInto view Inv entries p.reached (next p.reached)) :
    TakesInto view Inv entries s (p.andThen next) :=
  ⟨ready_andThen h.ready hnext.ready, fun key => (h.takes key).after (hnext.takes key)⟩

/-- A step that takes no entries may stand behind one that takes some. -/
theorem before (h : TakesInto view Inv entries s p)
    (hnext : TakesInto view Inv [] p.reached (next p.reached)) :
    TakesInto view Inv entries s (p.andThen next) :=
  ⟨ready_andThen h.ready hnext.ready, fun key => (h.takes key).before (hnext.takes key)⟩

/-- Work for one item after the other, none of which fills anything in. -/
theorem through_nothing {α : Type} {work : Settings → α → Progress Settings} {as : List α}
    (hstep : ∀ a ∈ as, ∀ s, Inv s → TakesInto view Inv [] s (work s a)) (hs : Inv s) :
    TakesInto view Inv [] s (Progress.through work as s) := by
  induction as generalizing s with
  | nil => exact of_eq hs rfl
  | cons a as ih =>
    have hfirst := hstep a List.mem_cons_self s hs
    exact hfirst.after (ih (fun b hb => hstep b (List.mem_cons_of_mem a hb)) hfirst.ready)

end TakesInto

/-! ## What a crate takes -/

/-- Modules of other crates stand under an identity key only. -/
theorem modulesKey_same_of_false (hk : isIdentityKey key = false) : modulesKey.same key = false := by
  rw [← Bool.not_eq_true]
  intro hsame
  rw [← isIdentityKey_congr hsame, isIdentityKey_modulesKey] at hk
  cases hk

/-- What is inherited has the keys that are no identity keys as they are. -/
theorem find?_inheritable_of_false (hk : isIdentityKey key = false) (t : Table Value) :
    Table.find? (inheritable t) key = Table.find? t key := by
  have hp : ∀ a b : Scalar, a.same b = true → (!isIdentityKey a) = !isIdentityKey b :=
    fun _ _ hsame => congrArg not (isIdentityKey_congr hsame)
  refine (Table.find?_filter hp t key).trans ?_
  rw [hk]
  rfl

/-- A key of a dependency for a language is taken if the crate has it for the language, or not at
all. -/
theorem find?_inheritedTable (own : Settings) (language : Scalar) (t : Table Value) (key : Scalar) :
    Table.find? (inheritedTable own language t) key =
      if Table.has (own.languageTable language) key || !Table.has own.shared key then
        Table.find? (inheritable t) key
      else none := by
  refine Table.find?_filter (p := fun k =>
    Table.has (own.languageTable language) k || !Table.has own.shared k) (fun a b hsame => ?_) _ key
  show (Table.has _ a || !Table.has _ a) = (Table.has _ b || !Table.has _ b)
  rw [Table.has_congr hsame, Table.has_congr hsame]

/-! ## Languages -/

/-- Settings that only note that they have inherited stay closed. -/
theorem Closed.start (hs : s.Closed) : Settings.Closed { s with inherited := true } :=
  ⟨hs.links, hs.shared, hs.bindings⟩

/-- Settings in which no key stands twice, neither in the shared table nor in that of a language. -/
structure DistinctKeys (s : Settings) : Prop where
  shared : s.shared.Distinct
  bindings : s.bindings.Distinct
  tables : ∀ language, (s.languageTable language).Distinct

/-- The table of a language, if there is one, stands alone. -/
def TableAlone (s : Settings) (language : Scalar) : Prop :=
  Stands s.links s.bindings language s.shared

/-- The table of a language is what its slot holds, or an empty one. -/
theorem languageTable_eq (s : Settings) (language : Scalar) :
    s.languageTable language = (slot s.links s.bindings language).getD [] := rfl

/-- Plain settings have no key twice. -/
theorem Plain.distinctKeys (h : s.Plain) : s.DistinctKeys :=
  ⟨h.shared.distinct, h.bindings.distinct, fun language => (h.keyed_languageTable language).distinct⟩

/-- In settings of a file without anchors every table stands alone. -/
theorem Plain.tableAlone (h : s.Plain) (hs : s.Closed) (language : Scalar) : s.TableAlone language := by
  refine stands_of_isTable hs.links hs.bindings hs.shared (h.distinctKeys.tables language) ?_
  intro v hv
  obtain ⟨k, hmem, -⟩ := Table.mem_of_find? hv
  exact h.tables (k, v) hmem

/-- Settings in which the table of a language stands alone. -/
structure Ready (language : Scalar) (s : Settings) : Prop where
  closed : s.Closed
  alone : s.TableAlone language

/-- Work that fills entries into the table of a language. -/
abbrev TakesTable (language : Scalar) : Table Value → Settings → Progress Settings → Prop :=
  TakesInto (languageTable · language) (Ready language)

/-- Work that leaves the table of the language as it is. -/
theorem takesTable_of_slot {p : Progress Settings} (h : s.GrowsTo p.reached)
    (halone : p.reached.TableAlone language)
    (hslot : slot p.reached.links p.reached.bindings language = slot s.links s.bindings language) :
    TakesTable language [] s p :=
  .of_eq ⟨h.closed, halone⟩ (congrArg (Option.getD · []) hslot)

/-- Taking shared keys leaves the table of a language as it is. -/
theorem takesTable_takeShared (h : Ready language s) (hd : d.Closed) (hk : d.shared.Distinct) :
    TakesTable language [] s (takeShared s d) := by
  have hs := h.closed
  obtain ⟨halone, hslot⟩ := h.alone.fillOthers hs.links hs.bindings hs.shared hd.links
    (hd.shared.filter _) (hk.filter _)
  exact takesTable_of_slot (growsTo_takeShared hs hd) halone hslot

/-- Recording a module leaves the table of a language as it is. -/
theorem takesTable_takeModule (h : Ready language s) (crate : Scalar) (d : Settings) :
    TakesTable language [] s (takeModule s crate d) := by
  have hset : (s.setNew "external_modules" (.table [])).TableAlone language :=
    h.alone.putNew_others _ .empty
  have hclosed : (s.setNew "external_modules" (.table [])).Closed :=
    (growsTo_setNew h.closed _ .empty).closed
  have hgrows := growsTo_takeModule crate d h.closed
  revert hgrows
  rw [takeModule]
  split
  · exact fun hgrows => takesTable_of_slot hgrows hset rfl
  · split
    · exact fun hgrows => takesTable_of_slot hgrows hset rfl
    · next name hname =>
      obtain ⟨halone, hslot⟩ := hset.fillOthers hclosed.links hclosed.bindings hclosed.shared
        closed_empty (.single (.text "external_modules") (.single crate (bounded_recordedName hname)))
        (List.pairwise_singleton _ _)
      exact fun hgrows => takesTable_of_slot hgrows halone hslot

/-- Taking keys for another language leaves the table of a language as it is. -/
theorem takesTable_takeLanguage_of_ne (h : Ready language s) (hd : d.Closed) (own : Settings)
    {other : Scalar} (hne : other.same language = false) :
    TakesTable language [] s (takeLanguage own d s other) := by
  have hs := h.closed
  have hgrows := growsTo_takeLanguage own hd other hs
  revert hgrows
  rw [takeLanguage]
  split
  · exact fun hgrows => takesTable_of_slot hgrows h.alone rfl
  · obtain ⟨hput, hsame⟩ := h.alone.putNew_other hne
    obtain ⟨halone, hslot⟩ := hput.fillRest hs.links (hs.bindings.putNew other .empty) hs.shared
      hd.links (.single other (bounded_inheritedTable hd own other)) (List.pairwise_singleton _ _)
      fun e hmem => by
        rw [List.mem_singleton.mp hmem, Scalar.same_comm]
        exact hne
    exact fun hgrows => takesTable_of_slot hgrows halone (hslot.trans hsame)

private theorem distinct_inheritedTable (h : t.Distinct) (own : Settings) (language : Scalar) :
    (inheritedTable own language t).Distinct :=
  (h.filter _).filter _

/-- Taking keys for a language fills its table. -/
theorem takesTable_takeLanguage_of_same (h : Ready language s) (hd : d.Closed) (hk : d.DistinctKeys)
    (own : Settings) {other : Scalar} (hsame : other.same language = true) :
    TakesTable language (inheritedTable own language (d.languageTable language)) s
      (takeLanguage own d s other) := by
  have hs := h.closed
  have hclosed := (growsTo_takeLanguage own hd other hs).closed
  have hcongr : inheritedTable own language (d.languageTable language) =
      inheritedTable own other (d.languageTable other) := by
    rw [inheritedTable_congr hsame, languageTable_congr hsame]
  revert hclosed
  rw [hcongr, takeLanguage]
  split
  · next hempty =>
    rw [List.isEmpty_iff.mp hempty]
    exact fun hclosed => .of_eq ⟨hclosed, h.alone⟩ rfl
  · obtain ⟨hput, hfound⟩ := (h.alone.congr (Scalar.same_symm hsame)).putNew_self
    obtain ⟨halone, t', hslot, hothers, hwhole⟩ := hput.fillSlot hs.links
      (hs.bindings.putNew other .empty) hs.shared hfound hd.links
      (bounded_inheritedTable hd own other) (distinct_inheritedTable (hk.tables other) own other)
    intro hclosed
    refine ⟨⟨hclosed, halone.congr hsame⟩, fun key => ?_⟩
    have hview (s : Settings) : s.languageTable language = s.languageTable other :=
      (languageTable_congr hsame).symm
    have hreached : Settings.languageTable (Progress.map s.withBindings _).reached other = t' :=
      congrArg (Option.getD · []) hslot
    refine ⟨fun hnone => ?_, fun hdone => ?_⟩
    · rw [hview, hview, hreached]
      exact hothers key hnone
    · rw [hview, hview, hreached]
      exact hwhole hdone key

/-- Taking keys for all languages takes for the language what the dependency has for it. -/
theorem takesTable_languages (hd : d.Closed) (hk : d.DistinctKeys) (own : Settings)
    (h : Ready language s) :
    TakesTable language (inheritedTable own language (d.languageTable language)) s
      (Progress.through (takeLanguage own d) (Table.keys d.bindings) s) := by
  have hkeys : (Table.keys d.bindings).Pairwise fun a b => a.same b = false :=
    List.pairwise_map.mpr hk.bindings
  have habsent (hne : ∀ other ∈ Table.keys d.bindings, other.same language = false) :
      inheritedTable own language (d.languageTable language) = [] := by
    have hnone : Table.find? d.bindings language = none :=
      Table.find?_eq_none_iff.mpr fun e he => hne e.1 (List.mem_map_of_mem he)
    rw [languageTable_eq, slot, hnone]
    rfl
  generalize Table.keys d.bindings = others at hkeys habsent
  induction others generalizing s with
  | nil =>
    rw [habsent fun _ h => absurd h List.not_mem_nil]
    exact .of_eq h rfl
  | cons other others ih =>
    obtain ⟨hother, hothers⟩ := List.pairwise_cons.mp hkeys
    rw [Progress.through]
    cases hsame : other.same language with
    | true =>
      have hfirst := takesTable_takeLanguage_of_same h hd hk own hsame
      refine hfirst.before (TakesInto.through_nothing (fun o ho now hnow => ?_) hfirst.ready)
      refine takesTable_takeLanguage_of_ne hnow hd own ?_
      rw [Scalar.same_comm, ← Scalar.same_congr_left hsame]
      exact hother o ho
    | false =>
      have hfirst := takesTable_takeLanguage_of_ne h hd own hsame
      refine hfirst.after (ih hfirst.ready hothers fun hne => habsent fun o ho => ?_)
      rcases List.mem_cons.mp ho with rfl | ho
      · exact hsame
      · exact hne o ho

/-- Taking the settings of a dependency takes for a language what the dependency has for it. -/
theorem takesTable_takeFrom (h : Ready language s) (own : Settings) {e : Scalar × Settings}
    (hd : e.2.Closed) (hk : e.2.DistinctKeys) :
    TakesTable language (inheritedTable own language (e.2.languageTable language)) s
      (takeFrom own s e) := by
  have hshared := takesTable_takeShared h hd hk.shared
  refine hshared.after ?_
  have hlanguages := takesTable_languages hd hk own hshared.ready
  refine hlanguages.before ?_
  have hlast := takesTable_takeModule hlanguages.ready e.1 e.2
  have hclosed := hlast.ready.closed
  exact hlast.before (.of_eq ⟨⟨hclosed.links, hclosed.shared, hclosed.bindings⟩, hlast.ready.alone⟩ rfl)

/-! ## Shared keys -/

/-- What filling entries into a table of settings makes of a key. -/
theorem takes_fillFrom (target source : Linked) (hl : target.1.Closed)
    (ht : Bounded target.1.size (.table target.2)) (hs : source.1.Closed)
    (he : Bounded source.1.size (.table source.2)) (hd : Table.Distinct source.2) :
    (∀ key, Table.find? source.2 key = none →
      Table.find? (fillFrom target source).reached.2 key = Table.find? target.2 key) ∧
    ((fillFrom target source).fault = none →
      MergesWhole .keep target.2 source.2 (fillFrom target source).reached.2) := by
  obtain ⟨-, -, -, -, habsent, hwhole⟩ := carries_fillFrom target source hl ht hs he hd
    (region_all hl) respectsSame_true (fun e hmem _ => labels_all (ht.of_mem hmem))
    fun _ _ => trivial
  exact ⟨habsent, hwhole⟩

/-- Taking shared keys takes those of the dependency that are inheritable. -/
theorem takes_shared_takeShared (hs : s.Closed) (hd : d.Closed) (hk : d.shared.Distinct)
    (key : Scalar) :
    Takes Settings.shared key (Table.find? (inheritable d.shared) key) s (takeShared s d) := by
  obtain ⟨habsent, hwhole⟩ := takes_fillFrom (s.links, s.shared) (d.links, inheritable d.shared)
    hs.links hs.shared hd.links (hd.shared.filter _) (hk.filter _)
  exact ⟨habsent key, fun hdone => hwhole hdone key⟩

/-- Taking keys for languages leaves the shared settings as they are. -/
theorem shared_languages (own d s : Settings) (languages : List Scalar) :
    (Progress.through (takeLanguage own d) languages s).reached.shared = s.shared := by
  refine Progress.through_keeps (Q := fun now : Settings => now.shared = s.shared)
    (fun language _ now hnow => ?_) rfl
  rw [takeLanguage]
  split
  · exact hnow
  · exact hnow

private theorem closed_languages (own : Settings) (hs : s.Closed) (hd : d.Closed)
    (languages : List Scalar) :
    (Progress.through (takeLanguage own d) languages s).reached.Closed :=
  Progress.through_keeps (Q := Settings.Closed)
    (fun language _ _ hnow => (growsTo_takeLanguage own hd language hnow).closed) hs

/-- Recording a module leaves other shared keys as they are. -/
theorem takes_shared_takeModule (hs : s.Closed) (crate : Scalar) (d : Settings)
    (hkey : modulesKey.same key = false) :
    Takes Settings.shared key none s (takeModule s crate d) := by
  have hset : Table.find? (s.setNew "external_modules" (.table [])).shared key =
      Table.find? s.shared key := by
    show Table.find? (Table.putNew s.shared modulesKey (.table [])) key = _
    rw [find?_putNew, hkey, if_neg Bool.false_ne_true]
    cases Table.find? s.shared key <;> rfl
  have hclosed : (s.setNew "external_modules" (.table [])).Closed := (growsTo_setNew hs _ .empty).closed
  rw [takeModule]
  split
  · exact .of_find? hset
  · split
    · exact .of_find? hset
    · next name hname =>
      have hnone : Table.find? [(modulesKey, Value.table [(crate, name)])] key = none := by
        rw [Table.find?, hkey, if_neg Bool.false_ne_true, Table.find?_nil]
      obtain ⟨habsent, -⟩ := takes_fillFrom (_, _) (#[], [(modulesKey, .table [(crate, name)])])
        hclosed.links hclosed.shared closed_empty (.single _ (.single _ (bounded_recordedName hname)))
        (List.pairwise_singleton _ _)
      exact .of_find? ((habsent key hnone).trans hset)

/-- Taking the settings of a dependency takes its inheritable shared keys. -/
theorem takes_shared_takeFrom (own : Settings) {e : Scalar × Settings} (hs : s.Closed)
    (hd : e.2.Closed) (hk : e.2.shared.Distinct) (hkey : modulesKey.same key = false) :
    Takes Settings.shared key (Table.find? (inheritable e.2.shared) key) s (takeFrom own s e) := by
  have hclosed : (takeShared s e.2).reached.Closed := (growsTo_takeShared hs hd).closed
  refine (takes_shared_takeShared hs hd hk key).before (Takes.after ?_ (Takes.after ?_ ?_))
  · exact .of_eq (shared_languages own e.2 _ _)
  · exact takes_shared_takeModule (closed_languages own hclosed hd _) e.1 e.2 hkey
  · exact .of_eq rfl

end BindGen.Settings

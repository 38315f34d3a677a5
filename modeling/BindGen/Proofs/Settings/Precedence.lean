import BindGen.Proofs.Settings.Laid
import BindGen.Proofs.Settings.Taken

/-!
# The order in which settings count

After the settings of dependencies have been taken, a language sees a key as the first of these sets
it: the crate for the language, the crate for all languages, the dependencies for the language in
the order of their names, and the dependencies for all languages in that order.
-/

namespace BindGen.Settings

open Value Links

variable {s s' own d : Settings} {dependencies : Table Settings} {key : Scalar}

/-! ## Refusals -/

/-- Some of the settings have links. -/
def AnyLinks (s : Settings) (dependencies : Table Settings) : Prop :=
  s.links ≠ #[] ∨ ∃ e ∈ dependencies, e.2.links ≠ #[]

/-- Why the settings of dependencies are not taken. -/
inductive Refusal (s : Settings) (dependencies : Table Settings) : SettingsError → Prop where
  | again : s.inherited = true → Refusal s dependencies .alreadyInherited
  | unnamed {e : Scalar × Settings} {f : Fault} : e ∈ dependencies →
      recordedName e.1 e.2 = .error f → Refusal s dependencies (.fault f)
  | endless : AnyLinks s dependencies → Refusal s dependencies (.fault .endless)

/-- Nothing speaks against taking settings without links for the first time, if there is a name for
the module of each dependency. -/
theorem not_refusal (hfirst : s.inherited = false)
    (hnames : ∀ e ∈ dependencies, ∃ name, recordedName e.1 e.2 = .ok name)
    (hlinks : ¬AnyLinks s dependencies) (e : SettingsError) : ¬Refusal s dependencies e := by
  intro h
  cases h with
  | again hagain => exact absurd (hfirst.symm.trans hagain) Bool.false_ne_true
  | unnamed he hf =>
    obtain ⟨name, hname⟩ := hnames _ he
    cases hname.symm.trans hf
  | endless hlinked => exact hlinks hlinked

/-- Work on settings that fails only with certain faults, and where links may appear only under a
condition. -/
structure Ends (L : Prop) (P : Fault → Prop) (x : Except Fault Settings) : Prop where
  fails : FailsWith P x
  links : Yields (fun s => ¬L → s.links = #[]) x

namespace Ends

variable {L : Prop} {P : Fault → Prop} {x : Except Fault Settings}
  {g : Settings → Except Fault Settings}

private theorem ok (h : ¬L → s.links = #[]) : Ends L P (.ok s) := ⟨.ok s, .ok h⟩

private theorem bind (h : Ends L P x) (hg : ∀ s, (¬L → s.links = #[]) → Ends L P (g s)) :
    Ends L P (x >>= g) where
  fails := h.fails.bind fun s hs => (hg s (h.links s hs)).fails
  links := h.links.bind fun s hs => (hg s hs).links

private theorem foldlM {α : Type} {step : Settings → α → Except Fault Settings} {as : List α}
    (h : ∀ a ∈ as, ∀ s, (¬L → s.links = #[]) → Ends L P (step s a)) (hs : ¬L → s.links = #[]) :
    Ends L P (as.foldlM step s) := by
  induction as generalizing s with
  | nil => exact .ok hs
  | cons a as ih =>
    rw [List.foldlM_cons]
    apply (h a List.mem_cons_self s hs).bind
    intro s hs
    exact ih (fun b hb => h b (List.mem_cons_of_mem a hb)) hs

/-- Work that goes on with filled tables. -/
theorem fillLinked {target source : Linked} {next : Linked → Settings}
    (ht : ¬L → target.1 = #[]) (hs : ¬L → source.1 = #[]) (hP : L → P .endless)
    (hnext : ∀ r, (next r).links = r.1) :
    Ends L P (Settings.fillLinked target source >>= fun r => .ok (next r)) := by
  rw [Settings.fillLinked]
  split
  · exact .ok fun _ => hnext _
  · next hlinks =>
    have hL : L := by
      by_contra hL
      rw [ht hL, hs hL] at hlinks
      exact hlinks rfl
    refine ⟨FailsWith.bind (fun f hf => ?_) fun r _ => .ok _, fun _ _ hnone => absurd hL hnone⟩
    obtain rfl := failsWith_mergeLinked _ _ _ f hf
    exact hP hL

end Ends

/-- Taking the settings of a dependency fails where its module has no name, and where links meet. -/
theorem ends_inheritFrom {L : Prop} {P : Fault → Prop} {crate : Scalar} (hs : ¬L → s.links = #[])
    (hd : ¬L → d.links = #[]) (hP : L → P .endless)
    (hname : ∀ f, recordedName crate d = .error f → P f) :
    Ends L P (inheritFrom own s crate d) := by
  have hlanguage : ∀ language ∈ Table.keys d.bindings, ∀ s : Settings, (¬L → s.links = #[]) →
      Ends L P (inheritLanguage own d s language) := by
    intro language _ s hs
    rw [inheritLanguage]
    dsimp only
    split
    · exact .ok hs
    · exact .fillLinked hs hd hP fun _ => rfl
  have hmodule : ∀ s : Settings, (¬L → s.links = #[]) → Ends L P (s.recordModule crate d) := by
    intro s hs
    rw [recordModule]
    dsimp only
    split
    · exact .ok hs
    · refine ⟨FailsWith.bind hname fun name _ => ?_, Yields.next fun name => ?_⟩
      · exact (Ends.fillLinked hs (fun _ => rfl) hP fun _ => rfl).fails
      · exact (Ends.fillLinked hs (fun _ => rfl) hP fun _ => rfl).links
  rw [inheritFrom]
  refine Ends.bind (.fillLinked hs hd hP fun _ => rfl) fun s hs => ?_
  refine (Ends.foldlM hlanguage hs).bind fun s hs => ?_
  exact (hmodule s hs).bind fun s hs => .ok hs

/-- Settings of dependencies are taken unless there is a reason against it, and bring no links along
where there are none. -/
theorem ends_inherit (ht : Table.TextKeyed dependencies) :
    FailsWith (Refusal s dependencies) (s.inherit dependencies) ∧
      Yields (fun s' => ¬AnyLinks s dependencies → s'.links = #[]) (s.inherit dependencies) := by
  rw [inherit, sortByKey_of_words ht.worded]
  split
  · next hagain => exact ⟨.error (.again hagain), .error _⟩
  · have hrun : Ends (AnyLinks s dependencies) (fun f => Refusal s dependencies (.fault f))
        ((sortOn Prod.fst dependencies).foldlM (fun now e => inheritFrom s now e.1 e.2)
          { s with inherited := true }) := by
      refine Ends.foldlM (fun e hmem now hnow => ?_) fun hnone => ?_
      · have he : e ∈ dependencies := (mem_sortOn ht.worded).mp hmem
        refine ends_inheritFrom hnow (fun hnone => ?_) .endless fun f hf => .unnamed he hf
        by_contra hlinks
        exact hnone (.inr ⟨e, he, hlinks⟩)
      · by_contra hlinks
        exact hnone (.inl hlinks)
    exact ⟨hrun.fails.mapError fun _ => id, hrun.links.mapError⟩

/-! ## The first value -/

/-- Inheriting is taking the settings of each dependency, in the order of their names. -/
theorem run_of_inherit (ht : Table.TextKeyed dependencies) (h : s.inherit dependencies = .ok s') :
    let p := Progress.through (takeFrom s) (sortOn Prod.fst dependencies) { s with inherited := true }
    p.fault = none ∧ p.reached = s' := by
  rw [inherit_eq_takeAll, takeAll, sortByKey_of_words ht.worded] at h
  split at h
  · next hfault =>
    split at hfault
    · cases hfault
    · next hfirst =>
      obtain rfl := Except.ok.inj h
      rw [if_neg hfirst]
      exact ⟨Option.map_eq_none_iff.mp hfault, rfl⟩
  · cases h

/-- What the table of a language holds under a key after the crate has inherited. -/
theorem find?_languageTable_inherit {language : Scalar} (hs : s.Closed)
    (ht : Table.TextKeyed dependencies) (hd : ∀ e ∈ dependencies, e.2.Closed ∧ e.2.DistinctKeys)
    (halone : s.TableAlone language)
    (hnew : ∀ e ∈ dependencies, ∀ v,
      Table.find? (inheritedTable s language (e.2.languageTable language)) key = some v → Whole v)
    (h : s.inherit dependencies = .ok s') :
    Ready language s' ∧ Table.find? (s'.languageTable language) key =
      (Table.find? (s.languageTable language) key).or ((sortOn Prod.fst dependencies).findSome?
        fun e => Table.find? (inheritedTable s language (e.2.languageTable language)) key) := by
  have hmem : ∀ e ∈ sortOn Prod.fst dependencies, e ∈ dependencies := fun _ =>
    (mem_sortOn ht.worded).mp
  have hstart : Ready language { s with inherited := true } :=
    ⟨hs.start, halone⟩
  obtain ⟨hdone, rfl⟩ := run_of_inherit ht h
  obtain ⟨hready, -, htable⟩ := Takes.through (takeFrom s) (languageTable · language) key
    (fun e : Scalar × Settings =>
      Table.find? (inheritedTable s language (e.2.languageTable language)) key)
    (Ready language) hstart fun e he now hnow => by
      obtain ⟨hclosed, hkeys⟩ := hd e (hmem e he)
      have htakes := takesTable_takeFrom hnow s hclosed hkeys
      exact ⟨htakes.ready, htakes.takes key⟩
  exact ⟨hready, htable hdone fun e he => hnew e (hmem e he)⟩

/-- What the shared settings hold under a key after a crate has inherited. -/
theorem find?_shared_inherit (hs : s.Closed) (ht : Table.TextKeyed dependencies)
    (hd : ∀ e ∈ dependencies, e.2.Closed ∧ e.2.DistinctKeys) (hk : isIdentityKey key = false)
    (hnew : ∀ e ∈ dependencies, ∀ v, Table.find? e.2.shared key = some v → Whole v)
    (h : s.inherit dependencies = .ok s') :
    Table.find? s'.shared key = (Table.find? s.shared key).or
      ((sortOn Prod.fst dependencies).findSome? fun e => Table.find? e.2.shared key) := by
  have hmem : ∀ e ∈ sortOn Prod.fst dependencies, e ∈ dependencies := fun _ =>
    (mem_sortOn ht.worded).mp
  have hother := modulesKey_same_of_false hk
  obtain ⟨hdone, rfl⟩ := run_of_inherit ht h
  obtain ⟨-, -, hshared⟩ := Takes.through (takeFrom s) Settings.shared key
    (fun e : Scalar × Settings => Table.find? e.2.shared key)
    Settings.Closed hs.start fun e he now hnow => by
      obtain ⟨hclosed, hkeys⟩ := hd e (hmem e he)
      have htakes := takes_shared_takeFrom s hnow hclosed hkeys.shared hother
      rw [find?_inheritable_of_false hk] at htakes
      exact ⟨(growsTo_takeFrom s hclosed hnow).closed, htakes⟩
  exact hshared hdone fun e he => hnew e (hmem e he)

/-- The tables in which a key is looked up for a language, in the order in which they count. -/
def precedence (s : Settings) (language : Scalar) (dependencies : Table Settings) :
    List (Table Value) :=
  s.languageTable language :: s.shared ::
    ((sortOn Prod.fst dependencies).map (fun e => e.2.languageTable language) ++
      (sortOn Prod.fst dependencies).map fun e => e.2.shared)

private theorem languageTable_mem_precedence (ht : Table.TextKeyed dependencies)
    {e : Scalar × Settings}
    (he : e ∈ dependencies) (s : Settings) (language : Scalar) :
    e.2.languageTable language ∈ s.precedence language dependencies :=
  List.mem_cons_of_mem _ (List.mem_cons_of_mem _ (List.mem_append_left _
    (List.mem_map_of_mem ((mem_sortOn ht.worded).mpr he))))

private theorem shared_mem_precedence (ht : Table.TextKeyed dependencies) {e : Scalar × Settings}
    (he : e ∈ dependencies) (s : Settings) (language : Scalar) :
    e.2.shared ∈ s.precedence language dependencies :=
  List.mem_cons_of_mem _ (List.mem_cons_of_mem _ (List.mem_append_right _
    (List.mem_map_of_mem ((mem_sortOn ht.worded).mpr he))))

/-- A key that the crate sets, but not for the language, is taken from no dependency for the
language; so taking keys for the language first and shared ones then finds the value that counts
first. -/
theorem findSome?_precedence (hk : isIdentityKey key = false) (s : Settings) (language : Scalar)
    (dependencies : Table Settings) :
    ((Table.find? (s.languageTable language) key).or ((sortOn Prod.fst dependencies).findSome?
        fun e => Table.find? (inheritedTable s language (e.2.languageTable language)) key)).or
      ((Table.find? s.shared key).or
        ((sortOn Prod.fst dependencies).findSome? fun e => Table.find? e.2.shared key)) =
      (s.precedence language dependencies).findSome? (Table.find? · key) := by
  simp only [precedence, List.findSome?_cons, List.findSome?_append, List.findSome?_map,
    Function.comp_def, find?_inheritedTable, find?_inheritable_of_false hk, Table.has]
  cases Table.find? (s.languageTable language) key with
  | some v => rfl
  | none =>
    cases Table.find? s.shared key with
    | some v =>
      have hnone : (sortOn Prod.fst dependencies).findSome? (fun _ => (none : Option Value)) = none :=
        List.findSome?_eq_none_iff.mpr fun _ _ => rfl
      simp [hnone]
    | none => simp

private theorem whole_or_findSome? {α : Type} {old : Option Value} {new : α → Option Value}
    {as : List α} {v : Value} (hold : ∀ v, old = some v → Whole v)
    (hnew : ∀ a ∈ as, ∀ v, new a = some v → Whole v) (hv : old.or (as.findSome? new) = some v) :
    Whole v := by
  rcases Option.or_eq_some_iff.mp hv with hv | ⟨-, hv⟩
  · exact hold v hv
  · obtain ⟨a, ha, hv⟩ := List.exists_of_findSome?_eq_some hv
    exact hnew a ha v hv

/-- After a crate has inherited, a language sees a key as the first table sets it that counts for
it, if the values of the key are whole and the table of the language stands alone. Inheriting is
refused only for a reason, and only links can keep the language from seeing anything. -/
theorem bindingsFor_inherit_first (hs : s.Closed) (ht : Table.TextKeyed dependencies)
    (hd : ∀ e ∈ dependencies, e.2.Closed ∧ e.2.DistinctKeys) {language : String}
    (halone : s.TableAlone language) (hk : isIdentityKey key = false)
    (hwhole : ∀ t ∈ s.precedence language dependencies, ∀ v, Table.find? t key = some v → Whole v) :
    FailsWith (Refusal s dependencies) (s.inherit dependencies) ∧
    Yields (fun s' =>
        (∃ t, s'.bindingsFor language = .ok t ∧
          Table.find? t key = (s.precedence language dependencies).findSome? (Table.find? · key)) ∨
        (AnyLinks s dependencies ∧ s'.bindingsFor language = .error .endless))
      (s.inherit dependencies) := by
  obtain ⟨hfails, hlinks⟩ := ends_inherit (s := s) ht
  refine ⟨hfails, fun s' h => ?_⟩
  have hown : ∀ v, Table.find? (s.languageTable language) key = some v → Whole v :=
    hwhole _ List.mem_cons_self
  have hshared : ∀ v, Table.find? s.shared key = some v → Whole v :=
    hwhole _ (List.mem_cons_of_mem _ List.mem_cons_self)
  have hnew : ∀ e ∈ dependencies, ∀ v,
      Table.find? (inheritedTable s language (e.2.languageTable language)) key = some v →
        Whole v := by
    intro e he v hv
    rw [find?_inheritedTable, find?_inheritable_of_false hk] at hv
    split at hv
    · exact hwhole _ (languageTable_mem_precedence ht he s language) v hv
    · cases hv
  have hnewShared : ∀ e ∈ dependencies, ∀ v, Table.find? e.2.shared key = some v → Whole v :=
    fun e he => hwhole _ (shared_mem_precedence ht he s language)
  obtain ⟨hready, htable⟩ := find?_languageTable_inherit hs ht hd halone hnew h
  have hshared' := find?_shared_inherit hs ht hd hk hnewShared h
  have hsorted : ∀ e ∈ sortOn Prod.fst dependencies, e ∈ dependencies := fun _ =>
    (mem_sortOn ht.worded).mp
  rcases bindingsFor_isOk_or s' language with ⟨t, hb⟩ | ⟨hsome, hendless⟩
  · refine .inl ⟨t, hb, ?_⟩
    have hfind := find?_bindingsFor hready.closed hready.alone.distinct
      (fun v hv => whole_or_findSome? hown (fun e he => hnew e (hsorted e he)) (htable ▸ hv))
      (fun v hv => whole_or_findSome? hshared (fun e he => hnewShared e (hsorted e he))
        (hshared' ▸ hv)) t hb
    rw [hfind, htable, hshared', findSome?_precedence hk]
  · refine .inr ⟨?_, hendless⟩
    by_contra hnone
    exact hsome (hlinks s' h hnone)

-- Settings with a theme for all languages and an indentation for one.
private def themed : Settings :=
  ⟨none, [(.text "theme", .text "dark")], [(.text "kotlin", .table [(.text "indent", .int 4)])],
    #[], [], false⟩

-- A dependency that sets the style of all languages, and a later one that sets that of one.
private def styles : Table Settings :=
  [(.text "alpha", ⟨none, [(.text "style", .text "wide")], [], #[], [], false⟩),
    (.text "beta", ⟨none, [], [(.text "kotlin", .table [(.text "style", .text "compact")])], #[], [],
      false⟩)]

private theorem closed_themed : themed.Closed :=
  ⟨closed_empty, Labels.single _ (.scalar _), Labels.single _ (Labels.single _ (.scalar _))⟩

private theorem plain_themed : themed.Plain := by
  refine ⟨rfl, keyed_single _ (.other rfl), keyed_single _ (keyed_single _ (.other rfl)), ?_⟩
  simp [themed, isTable]

private theorem textKeyed_styles : Table.TextKeyed styles := by simp [styles, Table.TextKeyed]

private theorem closed_styles : ∀ e ∈ styles, e.2.Closed ∧ e.2.DistinctKeys := by
  intro e he
  rcases List.mem_pair.mp he with rfl | rfl
  · refine ⟨⟨closed_empty, Labels.single _ (.scalar _), .empty⟩, Plain.distinctKeys ?_⟩
    exact ⟨rfl, keyed_single _ (.other rfl), Keyed.empty, fun _ h => absurd h List.not_mem_nil⟩
  · refine ⟨⟨closed_empty, .empty, Labels.single _ (Labels.single _ (.scalar _))⟩,
      Plain.distinctKeys ⟨rfl, Keyed.empty, keyed_single _ (keyed_single _ (.other rfl)), ?_⟩⟩
    simp [isTable]

private theorem anyLinks_styles : ¬AnyLinks themed styles := by
  rintro (hlinks | ⟨e, he, hlinks⟩)
  · exact hlinks rfl
  · rcases List.mem_pair.mp he with rfl | rfl <;> exact hlinks rfl

private theorem recordedName_styles : ∀ e ∈ styles, ∃ name, recordedName e.1 e.2 = .ok name := by
  intro e he
  rcases List.mem_pair.mp he with rfl | rfl <;> exact ⟨_, rfl⟩

private theorem precedence_themed : themed.precedence "kotlin" styles =
    [[(.text "indent", .int 4)], [(.text "theme", .text "dark")], [],
      [(.text "style", .text "compact")], [(.text "style", .text "wide")], []] := by
  have hdistinct : Table.Distinct styles := by
    simp only [Table.Distinct, styles, List.pairwise_cons]
    decide
  have hsorted : sortOn Prod.fst styles = styles :=
    Table.sortOn_eq_of_pairwise hdistinct textKeyed_styles.worded (.refl _)
      (List.pairwise_pair.mpr (by decide))
  rw [precedence, hsorted]
  rfl

/-- What a later dependency sets for the language counts before what an earlier one sets for all. -/
theorem bindingsFor_inherit_first_style :
    ∃ s' t, themed.inherit styles = .ok s' ∧ s'.bindingsFor "kotlin" = .ok t ∧
      Table.find? t (.text "style") = some (.text "compact") := by
  have hwhole : ∀ t ∈ themed.precedence "kotlin" styles, ∀ v,
      Table.find? t (.text "style") = some v → Whole v := by
    intro t hmem v hv
    rw [precedence_themed] at hmem
    obtain ⟨k, hentry, -⟩ := Table.mem_of_find? hv
    have hscalar : ∃ x, v = .scalar x := by
      simp only [List.mem_cons, List.not_mem_nil, or_false] at hmem
      rcases hmem with rfl | rfl | rfl | rfl | rfl | rfl <;> simp at hentry <;>
        exact ⟨_, hentry.2⟩
    obtain ⟨x, rfl⟩ := hscalar
    exact ⟨rfl, .scalar x⟩
  obtain ⟨hfails, hyields⟩ := bindingsFor_inherit_first closed_themed textKeyed_styles closed_styles
    (plain_themed.tableAlone closed_themed (.text "kotlin")) (by decide) hwhole
  obtain ⟨s', hinherit⟩ : ∃ s', themed.inherit styles = .ok s' := exists_eq_ok_iff.mpr fun e he =>
    not_refusal rfl recordedName_styles anyLinks_styles e (hfails e he)
  obtain ⟨t, hb, hfind⟩ | ⟨hlinks, -⟩ := hyields s' hinherit
  · refine ⟨s', t, hinherit, hb, ?_⟩
    rw [hfind, precedence_themed]
    rfl
  · exact absurd hlinks anyLinks_styles

end BindGen.Settings

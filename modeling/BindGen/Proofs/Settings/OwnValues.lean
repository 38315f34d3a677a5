import BindGen.Proofs.Run.Fold
import BindGen.Proofs.Settings.Paths
import BindGen.Proofs.Value.Order
import BindGen.Settings.Inheritance

/-!
# Own values under inheritance

Which values of a crate survive when it inherits settings. In the shared settings and in the table
of a language filling keeps every value that is no table. What a language sees is decided by both: a
shared value that the language's table leaves open is lost if a dependency's table puts something in
its place. Only the first key of a path guards against that, so a value is lost exactly if the
language's table, filled from the dependencies, no longer leaves its path open and does not happen
to have the same value there.
-/

namespace BindGen.Settings

open Value

/-- Settings without links, as a settings file without anchors gives them. -/
structure Plain (s : Settings) : Prop where
  links : s.links = #[]
  shared : Keyed (.table s.shared)
  bindings : Keyed (.table s.bindings)
  tables : ∀ e ∈ s.bindings, e.2.isTable = true

/-- The table of a language after it has been filled from dependencies. -/
def filledLanguageTable (own : Settings) (language : Scalar) (dependencies : Table Settings) :
    Table Value :=
  dependencies.foldl
    (fun t e => fill t (inheritedTable own language (e.2.languageTable language)))
    (own.languageTable language)

/-- All values of the first value that are no tables are at the same paths in the second one. -/
def Keeps (v w : Value) : Prop :=
  ∀ path x, x.isTable = false → v.at? path = some x → w.at? path = some x

/-- A value keeps itself. -/
theorem Keeps.refl (v : Value) : Keeps v v := fun _ _ _ h => h

private theorem Keeps.trans {u v w : Value} (h : Keeps u v) (h' : Keeps v w) : Keeps u w :=
  fun path x hx hu => h' path x hx (h path x hx hu)

private theorem keeps_fill {t source : Table Value} (hs : Keyed (.table source)) :
    Keeps (.table t) (.table (fill t source)) := by
  intro path x hx h
  rw [← filled_table]
  exact at?_filled hs hx h

/-- A key put where it is missing is found, and the others are as before. -/
theorem find?_putNew (t : Table Value) (key : Scalar) (v : Value) (key' : Scalar) :
    Table.find? (Table.putNew t key v) key' =
      match Table.find? t key' with
      | some w => some w
      | none => if key.same key' then some v else none := by
  rw [Table.putNew]
  split
  · next h =>
    cases hf : Table.find? t key' with
    | some w => rfl
    | none =>
      rw [if_neg]
      intro hk
      rw [Table.has_congr hk, Table.has, hf] at h
      cases h
  · next h =>
    rw [Table.find?_put]
    split
    · next hk =>
      rw [Bool.not_eq_true, Table.has_congr hk, Table.has, Option.isSome_eq_false_iff,
        Option.isNone_iff_eq_none] at h
      rw [h]
    · cases Table.find? t key' <;> rfl

private theorem keeps_putNew (t : Table Value) (key : Scalar) (v : Value) :
    Keeps (.table t) (.table (Table.putNew t key v)) := by
  intro path x hx h
  cases path with
  | nil =>
    obtain rfl := Option.some.inj h
    cases hx
  | cons key' path =>
    rw [at?] at h ⊢
    rw [find?_putNew]
    cases hf : Table.find? t key' with
    | none =>
      rw [hf] at h
      cases h
    | some w =>
      rw [hf] at h
      exact h

variable {own s s' d : Settings} {language : Scalar}

/-- Taking shared keys into plain settings fills in what is missing and not an identity key. -/
theorem inheritShared_plain (hs : s.Plain) (hd : d.Plain) :
    s.inheritShared d =
      .ok { s with links := #[], shared := fill s.shared (inheritable d.shared) } := by
  rw [inheritShared, hs.links, hd.links]
  rfl

private theorem inheritLanguage_plain (hs : s.Plain) (hd : d.Plain) (key : Scalar) :
    inheritLanguage own d s key =
      if (inheritedTable own key (d.languageTable key)).isEmpty then .ok s
      else .ok { s with
        links := #[]
        bindings := fill (Table.putNew s.bindings key (.table []))
          [(key, .table (inheritedTable own key (d.languageTable key)))] } := by
  rw [inheritLanguage, hs.links, hd.links]
  rfl

private theorem keyed_putNew {t : Table Value} (h : Keyed (.table t)) (key : Scalar) {v : Value}
    (hv : Keyed v) : Keyed (.table (Table.putNew t key v)) := by
  rw [Table.putNew]
  split
  · exact h
  · exact h.put key hv

/-- A table of one keyed value is keyed. -/
theorem keyed_single {v : Value} (key : Scalar) (hv : Keyed v) :
    Keyed (.table [(key, v)]) :=
  Keyed.empty.put key hv

private theorem languageTable_of_find? {t : Table Value}
    (h : Table.find? s.bindings language = some (.table t)) : s.languageTable language = t := by
  rw [Settings.languageTable, h]
  rfl

private theorem languageTable_of_find?_none (h : Table.find? s.bindings language = none) :
    s.languageTable language = [] := by
  rw [Settings.languageTable, h]
  rfl

private theorem languageTable_of_bindings (hs : s.Plain) (hs' : s'.Plain)
    (h : s'.bindings = s.bindings) : s'.languageTable language = s.languageTable language := by
  rw [Settings.languageTable, Settings.languageTable, h, hs.links, hs'.links]

/-- In plain settings the table of a language is what stands under it, or empty. -/
theorem Plain.languageTable (h : s.Plain) (language : Scalar) :
    Table.find? s.bindings language = some (.table (s.languageTable language)) ∨
      (Table.find? s.bindings language = none ∧ s.languageTable language = []) := by
  rw [Settings.languageTable]
  cases hf : Table.find? s.bindings language with
  | none => exact Or.inr ⟨rfl, rfl⟩
  | some v =>
    obtain ⟨k, hm, -⟩ := Table.mem_of_find? hf
    have := h.tables _ hm
    cases v with
    | table t => exact Or.inl rfl
    | _ => cases this

/-- The table of a language is keyed in plain settings. -/
theorem Plain.keyed_languageTable (h : s.Plain) (language : Scalar) :
    Keyed (.table (s.languageTable language)) := by
  rcases h.languageTable language with hf | ⟨-, hnil⟩
  · exact h.bindings.of_find? hf
  · rw [hnil]
    exact Keyed.empty

/-- Languages that are the same have one table. -/
theorem languageTable_congr {a b : Scalar} (h : a.same b = true) :
    s.languageTable a = s.languageTable b := by
  rw [Settings.languageTable, Settings.languageTable, Table.find?_congr h]

/-- What is inherited for a language is the same for languages that are the same. -/
theorem inheritedTable_congr {a b : Scalar} (h : a.same b = true) (t : Table Value) :
    inheritedTable own a t = inheritedTable own b t := by
  rw [inheritedTable, inheritedTable, languageTable_congr h]

/-- What is inherited from a keyed table is keyed. -/
theorem keyed_inheritedTable {t : Table Value} (h : Keyed (.table t)) (own : Settings)
    (language : Scalar) : Keyed (.table (inheritedTable own language t)) :=
  (h.filter _).filter _

-- The bindings of plain settings after entries have been taken for one language.
private theorem find?_fill_bindings (hs : s.Plain) (key : Scalar) (entries : Table Value)
    (language : Scalar) :
    Table.find? (fill (Table.putNew s.bindings key (.table [])) [(key, .table entries)]) language =
      if key.same language then some (.table (fill (s.languageTable language) entries))
      else Table.find? s.bindings language := by
  have hd : Table.Distinct [(key, Value.table entries)] := List.pairwise_singleton _ _
  rw [find?_fill hd, Table.find?, Table.find?_nil, find?_putNew]
  by_cases hk : key.same language = true
  · rw [if_pos hk, if_pos hk, if_pos hk]
    rcases hs.languageTable language with hf | ⟨hf, hnil⟩
    · rw [hf]
      exact congrArg some (filled_table _ _)
    · rw [hf, hnil]
      exact congrArg some (filled_table _ _)
  · rw [if_neg hk, if_neg hk, if_neg hk]
    cases Table.find? s.bindings language <;> rfl

private theorem inheritLanguage_spec (hs : s.Plain) (hd : d.Plain) {key : Scalar}
    (h : inheritLanguage own d s key = .ok s') :
    s'.Plain ∧ s'.shared = s.shared ∧ ∀ language, s'.languageTable language =
      if key.same language then
        fill (s.languageTable language) (inheritedTable own language (d.languageTable language))
      else s.languageTable language := by
  have hcongr {language : Scalar} (hk : key.same language = true) :
      inheritedTable own language (d.languageTable language) =
        inheritedTable own key (d.languageTable key) := by
    rw [inheritedTable_congr hk, languageTable_congr hk]
  rw [inheritLanguage_plain hs hd] at h
  split at h
  · next hempty =>
    obtain rfl := Except.ok.inj h
    refine ⟨hs, rfl, fun language => ?_⟩
    split
    · next hk => rw [hcongr hk, List.isEmpty_iff.mp hempty, fill]
    · rfl
  · obtain rfl := Except.ok.inj h
    have hfind := find?_fill_bindings hs key (inheritedTable own key (d.languageTable key))
    have hentries := keyed_inheritedTable (hd.keyed_languageTable key) own key
    have hkeyed := keyed_fill (keyed_putNew hs.bindings key Keyed.empty) (keyed_single key hentries)
    refine ⟨⟨rfl, hs.shared, hkeyed, fun e he => ?_⟩, rfl, fun language => ?_⟩
    · have hf := Table.find?_of_mem hkeyed.distinct he (Scalar.same_refl _)
      rw [hfind] at hf
      split at hf
      · rw [← Option.some.inj hf]
        rfl
      · obtain ⟨k, hm, -⟩ := Table.mem_of_find? hf
        exact hs.tables (k, e.2) hm
    · have hl := hfind language
      split
      · next hk =>
        rw [if_pos hk] at hl
        rw [hcongr hk]
        exact languageTable_of_find? hl
      · next hk =>
        rw [if_neg hk] at hl
        rcases hs.languageTable language with hf | ⟨hf, hnil⟩
        · exact languageTable_of_find? (hl.trans hf)
        · rw [hnil]
          exact languageTable_of_find?_none (hl.trans hf)

/-- Taking keys for several languages fills the table of each of them once. -/
theorem inheritLanguages_spec (hs : s.Plain) (hd : d.Plain) {keys : List Scalar}
    (hkeys : keys.Pairwise fun a b => a.same b = false)
    (h : keys.foldlM (inheritLanguage own d) s = .ok s') :
    s'.Plain ∧ s'.shared = s.shared ∧ ∀ language, s'.languageTable language =
      if keys.any (·.same language) then
        fill (s.languageTable language) (inheritedTable own language (d.languageTable language))
      else s.languageTable language := by
  induction keys generalizing s with
  | nil =>
    obtain rfl := Except.ok.inj h
    exact ⟨hs, rfl, fun _ => rfl⟩
  | cons key keys ih =>
    obtain ⟨hkey, hkeys⟩ := List.pairwise_cons.mp hkeys
    rw [List.foldlM_cons] at h
    obtain ⟨next, hn, h⟩ := exists_of_bind_eq_ok h
    obtain ⟨hplain, hshared, hlang⟩ := inheritLanguage_spec hs hd hn
    obtain ⟨hplain', hshared', hlang'⟩ := ih hplain hkeys h
    refine ⟨hplain', hshared'.trans hshared, fun language => ?_⟩
    rw [hlang', hlang, List.any_cons]
    by_cases hk : key.same language = true
    · have hany : keys.any (·.same language) = false := by
        rw [List.any_eq_false]
        intro k hm hsame
        have hdiffer := hkey k hm
        rw [Scalar.same_congr_left hk, Scalar.same_comm, hsame] at hdiffer
        cases hdiffer
      rw [hany, hk]
      rfl
    · rw [Bool.not_eq_true] at hk
      rw [hk]
      rfl

/-- A recorded name is no table. -/
theorem isTable_recordedName {crate : Scalar} {v : Value}
    (h : recordedName crate d = .ok v) : v.isTable = false := by
  rw [recordedName] at h
  obtain ⟨name, -, h⟩ := exists_of_bind_eq_ok h
  cases name with
  | none =>
    obtain rfl := Except.ok.inj h
    rfl
  | some name =>
    obtain rfl := Except.ok.inj h
    split <;> rfl

/-- Recording a module leaves the bindings alone and keeps the shared values. -/
theorem recordModule_spec (hs : s.Plain) {crate : Scalar}
    (h : s.recordModule crate d = .ok s') :
    s'.Plain ∧ s'.bindings = s.bindings ∧ Keeps (.table s.shared) (.table s'.shared) := by
  have hkeyed := keyed_putNew hs.shared (.text "external_modules") Keyed.empty
  have hkeeps := keeps_putNew s.shared (.text "external_modules") (.table [])
  rw [recordModule] at h
  simp only at h
  split at h
  · obtain rfl := Except.ok.inj h
    exact ⟨⟨hs.links, hkeyed, hs.bindings, hs.tables⟩, rfl, hkeeps⟩
  · obtain ⟨name, hn, h⟩ := exists_of_bind_eq_ok h
    rw [hs.links] at h
    obtain rfl := Except.ok.inj h
    have hname := keyed_single crate (.other (isTable_recordedName hn))
    have hsource := keyed_single (.text "external_modules") hname
    exact ⟨⟨rfl, keyed_fill hkeyed hsource, hs.bindings, hs.tables⟩, rfl,
      hkeeps.trans (keeps_fill hsource)⟩

/-- A crate has inherited from dependencies: its values are kept, and the table of each language has
been filled. -/
structure Inherited (own : Settings) (dependencies : Table Settings) (now : Settings) : Prop where
  plain : now.Plain
  shared : Keeps (.table own.shared) (.table now.shared)
  table : ∀ language,
    Keeps (.table (own.languageTable language)) (.table (now.languageTable language))
  language : ∀ language,
    now.languageTable language = filledLanguageTable own language dependencies

/-- Inheriting from one more dependency. -/
theorem Inherited.inheritFrom {done : Table Settings} {now : Settings} {crate : Scalar}
    (h : Inherited own done now) (hd : d.Plain) (hf : inheritFrom own now crate d = .ok s') :
    Inherited own (done ++ [(crate, d)]) s' := by
  have hinherit : Keyed (.table (inheritable d.shared)) := hd.shared.filter _
  have hplain : Plain { now with links := #[], shared := fill now.shared (inheritable d.shared) } :=
    ⟨rfl, keyed_fill h.plain.shared hinherit, h.plain.bindings, h.plain.tables⟩
  have hkeys : (Table.keys d.bindings).Pairwise fun a b => a.same b = false :=
    List.pairwise_map.mpr hd.bindings.distinct
  rw [Settings.inheritFrom, inheritShared_plain h.plain hd, ok_bind] at hf
  obtain ⟨mid, hl, hf⟩ := exists_of_bind_eq_ok hf
  obtain ⟨last, hr, hf⟩ := exists_of_bind_eq_ok hf
  obtain rfl := Except.ok.inj hf
  obtain ⟨hmid, hshared, hlang⟩ := inheritLanguages_spec hplain hd hkeys hl
  obtain ⟨hlast, hbindings, hkeeps⟩ := recordModule_spec hmid hr
  have hstep (language : Scalar) : last.languageTable language =
      fill (now.languageTable language)
        (inheritedTable own language (d.languageTable language)) := by
    rw [languageTable_of_bindings hmid hlast hbindings, hlang,
      languageTable_of_bindings h.plain hplain rfl]
    cases ha : (Table.keys d.bindings).any (·.same language) with
    | true => rfl
    | false =>
      have hnone : Table.find? d.bindings language = none := by
        rw [Table.find?_eq_none_iff]
        intro e he
        have hdiffer := List.any_eq_false.mp ha e.1 (List.mem_map_of_mem he)
        rwa [Bool.not_eq_true] at hdiffer
      rw [languageTable_of_find?_none hnone]
      exact (fill.eq_1 _).symm
  refine ⟨⟨hlast.links, hlast.shared, hlast.bindings, hlast.tables⟩, ?_, fun language => ?_,
    fun language => ?_⟩
  · rw [hshared] at hkeeps
    exact h.shared.trans ((keeps_fill hinherit).trans hkeeps)
  · change Keeps _ (.table (last.languageTable language))
    rw [hstep]
    exact (h.table language).trans
      (keeps_fill (keyed_inheritedTable (hd.keyed_languageTable language) own language))
  · rw [filledLanguageTable, List.foldl_append, List.foldl_cons, List.foldl_nil,
      ← filledLanguageTable, ← h.language]
    exact hstep language

/-- Inheriting from dependencies, one after the other. -/
theorem Inherited.foldlM {done dependencies : Table Settings} {now : Settings}
    (h : Inherited own done now) (hd : ∀ e ∈ dependencies, e.2.Plain)
    (hf : dependencies.foldlM (fun now e => Settings.inheritFrom own now e.1 e.2) now = .ok s') :
    Inherited own (done ++ dependencies) s' := by
  induction dependencies generalizing done now with
  | nil =>
    obtain rfl := Except.ok.inj hf
    rw [List.append_nil]
    exact h
  | cons e rest ih =>
    rw [List.foldlM_cons] at hf
    obtain ⟨next, hn, hf⟩ := exists_of_bind_eq_ok hf
    have hrest := ih (h.inheritFrom (hd e List.mem_cons_self) hn)
      (fun e he => hd e (List.mem_cons_of_mem _ he)) hf
    rw [List.append_assoc] at hrest
    exact hrest

/-- A crate that inherits from dependencies does so in the order of their names. -/
theorem inherited_of_inherit (hs : s.Plain) {dependencies : Table Settings}
    (ht : Table.TextKeyed dependencies) (hd : ∀ e ∈ dependencies, e.2.Plain)
    (h : s.inherit dependencies = .ok s') :
    Inherited s (sortOn Prod.fst dependencies) s' := by
  have hstart : Inherited s [] { s with inherited := true } :=
    ⟨⟨hs.links, hs.shared, hs.bindings, hs.tables⟩, Keeps.refl _, fun _ => Keeps.refl _,
      fun _ => rfl⟩
  have hsorted : ∀ e ∈ sortOn Prod.fst dependencies, e.2.Plain := fun e he =>
    hd e ((mem_sortOn ht.worded).mp he)
  rw [Settings.inherit, sortByKey_of_words ht.worded] at h
  split at h
  · cases h
  · exact hstart.foldlM hsorted (eq_ok_of_mapError h)

/-- What a language sees of plain settings. -/
theorem at?_bindingsFor_iff (hs : s.Plain) (language : String) :
    ∃ t, s.bindingsFor language = .ok t ∧ ∀ path v, v.isTable = false →
      ((Value.table t).at? path = some v ↔
        (Value.table (s.languageTable language)).at? path = some v ∨
          ((Value.table (s.languageTable language)).leavesOpen path = true ∧
            (Value.table s.shared).at? path = some v)) := by
  refine ⟨_, bindingsFor_plain s language hs.links, fun path v hv => ?_⟩
  rw [← overlaid_table]
  exact at?_overlaid_iff (hs.keyed_languageTable _) hv

private theorem find?_inheritedTable_of_lacks {key : Scalar} (t : Table Value)
    (hl : Table.find? (own.languageTable language) key = none)
    (hs : Table.has own.shared key = true) :
    Table.find? (inheritedTable own language t) key = none := by
  rw [Table.find?_eq_none_iff]
  intro e he
  rw [← Bool.not_eq_true]
  intro hk
  have hlacks : Table.has (own.languageTable language) e.1 = false := by
    rw [Table.has_congr hk, Table.has, hl]
    rfl
  have hp : (Table.has (own.languageTable language) e.1 || !Table.has own.shared e.1) = true :=
    (List.mem_filter.mp he).2
  rw [hlacks, Table.has_congr hk, hs] at hp
  cases hp

/-- A shared key that the table of a language lacks stays out of that table. -/
theorem find?_filledLanguageTable_of_lacks {key : Scalar} {dependencies : Table Settings}
    (hd : ∀ e ∈ dependencies, e.2.Plain)
    (hl : Table.find? (own.languageTable language) key = none)
    (hs : Table.has own.shared key = true) :
    Table.find? (filledLanguageTable own language dependencies) key = none := by
  have hrun (t : Table Value) (ht : Table.find? t key = none) :
      Table.find? (dependencies.foldl
        (fun t e => fill t (inheritedTable own language (e.2.languageTable language))) t) key =
          none := by
    induction dependencies generalizing t with
    | nil => exact ht
    | cons e rest ih =>
      have hkeyed := (hd e List.mem_cons_self).keyed_languageTable language
      refine ih (fun e he => hd e (List.mem_cons_of_mem _ he)) _ ?_
      rw [find?_fill (keyed_inheritedTable hkeyed own language).distinct,
        find?_inheritedTable_of_lacks _ hl hs]
      exact ht
  exact hrun _ hl

/-- A shared value is kept if the table of the language lacks the first key of its path. -/
theorem bindingsFor_inherit_of_lacks (hs : s.Plain) {dependencies : Table Settings}
    (ht : Table.TextKeyed dependencies) (hd : ∀ e ∈ dependencies, e.2.Plain)
    (h : s.inherit dependencies = .ok s') {language : String} {key : Scalar} {path : List Scalar}
    {v : Value} (hv : v.isTable = false)
    (hl : Table.find? (s.languageTable language) key = none)
    (hat : (Value.table s.shared).at? (key :: path) = some v) :
    ∃ after, s'.bindingsFor language = .ok after ∧
      (Value.table after).at? (key :: path) = some v := by
  have hi := inherited_of_inherit hs ht hd h
  obtain ⟨after, ha, hafter⟩ := at?_bindingsFor_iff hi.plain language
  have hhas : Table.has s.shared key = true := by
    rw [at?] at hat
    cases hf : Table.find? s.shared key with
    | none =>
      rw [hf] at hat
      cases hat
    | some w => rw [Table.has, hf, Option.isSome_some]
  have hd' : ∀ e ∈ sortOn Prod.fst dependencies, e.2.Plain := fun e he =>
    hd e ((mem_sortOn ht.worded).mp he)
  have hopen : (Value.table (s'.languageTable language)).leavesOpen (key :: path) = true := by
    rw [hi.language, leavesOpen, find?_filledLanguageTable_of_lacks hd' hl hhas]
  exact ⟨after, ha, (hafter _ v hv).mpr (Or.inr ⟨hopen, hi.shared _ v hv hat⟩)⟩

/-- Plain settings that inherit keep everything that a language sees exactly if, wherever the table
of the language leaves a shared value open, the table filled from the dependencies still does, or
has the same value there. -/
theorem bindingsFor_inherit_keeps_iff (hs : s.Plain) {dependencies : Table Settings}
    (ht : Table.TextKeyed dependencies) (hd : ∀ e ∈ dependencies, e.2.Plain)
    (h : s.inherit dependencies = .ok s') (language : String) :
    ∃ before after, s.bindingsFor language = .ok before ∧ s'.bindingsFor language = .ok after ∧
      (Keeps (.table before) (.table after) ↔
        ∀ path v, v.isTable = false → (Value.table s.shared).at? path = some v →
          (Value.table (s.languageTable language)).leavesOpen path = true →
          let filled := Value.table (filledLanguageTable s language (sortOn Prod.fst dependencies))
          filled.leavesOpen path = true ∨ filled.at? path = some v) := by
  have hi := inherited_of_inherit hs ht hd h
  obtain ⟨before, hb, hbefore⟩ := at?_bindingsFor_iff hs language
  obtain ⟨after, ha, hafter⟩ := at?_bindingsFor_iff hi.plain language
  rw [hi.language] at hafter
  refine ⟨before, after, hb, ha, ?_⟩
  constructor
  · intro hkeeps path v hv hshared hopen
    have hat := hkeeps path v hv ((hbefore path v hv).mpr (Or.inr ⟨hopen, hshared⟩))
    rcases (hafter path v hv).mp hat with hat | ⟨hopen', -⟩
    · exact Or.inr hat
    · exact Or.inl hopen'
  · intro hcond path v hv hat
    refine (hafter path v hv).mpr ?_
    rcases (hbefore path v hv).mp hat with hlang | ⟨hopen, hshared⟩
    · rw [← hi.language]
      exact Or.inl (hi.table language path v hv hlang)
    · rcases hcond path v hv hshared hopen with hopen' | hat'
      · exact Or.inr ⟨hopen', hi.shared path v hv hshared⟩
      · exact Or.inl hat'

/-- A shared table and a table of a language that adds a key to it. -/
def splitSettings : Settings :=
  ⟨none, [(.text "paths", .table [(.text "out", .text "own")])],
    [(.text "kotlin", .table [(.text "paths", .table [(.text "cache", .text "own")])])], #[], [],
    false⟩

/-- A table of a language that sets a key of a nested table. -/
def nestedDependency : Settings :=
  ⟨none, [], [(.text "kotlin", .table [(.text "paths", .table [(.text "out", .text "core")])])],
    #[], [], false⟩

/-- The table of the dependency's language covers a value that the settings share with the language,
so the settings do not keep it. -/
theorem bindingsFor_inherit_keeps_iff_split :
    ∃ s' before after, splitSettings.inherit [(.text "core", nestedDependency)] = .ok s' ∧
      splitSettings.bindingsFor "kotlin" = .ok before ∧ s'.bindingsFor "kotlin" = .ok after ∧
      ¬Keeps (.table before) (.table after) := by
  have hs : splitSettings.Plain := by
    refine ⟨rfl, keyed_single _ (keyed_single _ (.other rfl)),
      keyed_single _ (keyed_single _ (keyed_single _ (.other rfl))), ?_⟩
    simp [splitSettings, isTable]
  have hd : ∀ e ∈ [(Scalar.text "core", nestedDependency)], e.2.Plain := by
    intro e he
    obtain rfl := List.mem_singleton.mp he
    refine ⟨rfl, Keyed.empty, keyed_single _ (keyed_single _ (keyed_single _ (.other rfl))), ?_⟩
    simp [nestedDependency, isTable]
  have ht : Table.TextKeyed [(Scalar.text "core", nestedDependency)] := by
    simp [Table.TextKeyed]
  have hsort : sortOn Prod.fst [(Scalar.text "core", nestedDependency)] =
      [(.text "core", nestedDependency)] := by
    rw [sortOn_of_words ht.worded, List.mergeSort_singleton]
  have hok : ∃ s', splitSettings.inherit [(.text "core", nestedDependency)] = .ok s' := by
    rw [Settings.inherit, sortByKey_of_words ht.worded, hsort]
    exact ⟨_, rfl⟩
  obtain ⟨s', h⟩ := hok
  obtain ⟨before, after, hb, ha, hiff⟩ := bindingsFor_inherit_keeps_iff hs ht hd h "kotlin"
  refine ⟨s', before, after, h, hb, ha, fun hkeeps => ?_⟩
  have hlost := hiff.mp hkeeps [.text "paths", .text "out"] (.text "own") rfl rfl rfl
  rw [hsort] at hlost
  rcases hlost with hopen | hsame
  · cases hopen
  · have : Value.text "core" = .text "own" := Option.some.inj hsame
    simp at this

end BindGen.Settings

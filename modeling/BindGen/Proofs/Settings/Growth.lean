import BindGen.Proofs.Value.Growth
import BindGen.Proofs.Value.Order
import BindGen.Settings.Update

/-!
# Settings that grow

Updates never take anything from settings: whatever keys and places lead to before updates they lead
to afterwards, tables only gain keys, and what is no table is the very same value. This holds also
where an update fails partway. A list may hold a table that stands under a key as well; if that
table gains a key there, the list shows it, and only then does a value look different from before.
Settings of dependencies are taken once; every later attempt is refused and changes nothing.
-/

namespace BindGen

namespace Progress

variable {σ α : Type} {work : σ → α → Progress σ} {P : σ → Prop} {R : σ → σ → Prop}

/-- Work for one item after the other leaves what each piece of it leaves. -/
theorem reached_through (hrefl : ∀ {s}, P s → R s s)
    (htrans : ∀ {s s' s''}, R s s' → R s' s'' → R s s'') (hnext : ∀ {s s'}, P s → R s s' → P s')
    {as : List α} (hstep : ∀ a ∈ as, ∀ s, P s → R s (work s a).reached) {s : σ} (hs : P s) :
    R s (through work as s).reached := by
  induction as generalizing s with
  | nil => exact hrefl hs
  | cons a rest ih =>
    have hfirst := hstep a List.mem_cons_self s hs
    rw [through, andThen]
    split
    · exact htrans hfirst (ih (fun b hb => hstep b (List.mem_cons_of_mem a hb)) (hnext hs hfirst))
    · exact hfirst

/-- What each piece of work keeps is kept. -/
theorem through_keeps {Q : σ → Prop} {as : List α}
    (hstep : ∀ a ∈ as, ∀ s, Q s → Q (work s a).reached) {s : σ} (hs : Q s) :
    Q (through work as s).reached :=
  reached_through (P := Q) (R := fun _ s => Q s) id (fun _ h => h) (fun _ h => h) hstep hs

/-- What holds of the work so far and is kept by the next piece holds of both. -/
theorem reached_andThen {Q : σ → Prop} {p : Progress σ} {next : σ → Progress σ}
    (hp : Q p.reached) (hnext : ∀ s, Q s → Q (next s).reached) : Q (p.andThen next).reached := by
  rw [andThen]
  split
  · exact hnext _ hp
  · exact hp

end Progress

namespace Settings

open Value Links

variable {l source : Links} {label : Nat} {t : Table Value} {k : Scalar} {v old : Value}

/-! ## Filling tables under labels -/

/-- A table is kept under a label. -/
structure HoldsTable (label : Nat) (l : Links) : Prop where
  closed : l.Closed
  inside : label < l.size
  table : ∃ t, l.content label = .table t

private theorem HoldsTable.grown (h : HoldsTable label l) {l' : Links}
    (hg : Grown l .null l' .null) :
    HoldsTable label l' := by
  obtain ⟨t, ht⟩ := h.table
  obtain ⟨R, hgrowth, -, hr⟩ := (hg.other (.link .table h.inside)).growth
  obtain ⟨t', ht', -⟩ := hgrowth.table hr ht
  exact ⟨hg.closed, Nat.lt_of_lt_of_le h.inside hg.size, t', ht'⟩

/-- Putting a copy under a key that is absent lets all values grow. -/
theorem grown_putCopy (h : HoldsTable label l) (ht : l.content label = .table t)
    (hk : Table.find? t k = none) (hs : source.Closed) (hv : Bounded source.size v) :
    Grown l .null (putCopy source label t k v l) .null := by
  obtain ⟨hsize, hclosed, hcopy, hkept⟩ := adopt_spec (l := l) hs hv
  rw [putCopy]
  generalize l.adopt source v = adopted at hsize hclosed hcopy hkept
  obtain ⟨l₁, copy⟩ := adopted
  have htable : Bounded l.size (.table t) := ht ▸ h.closed label h.inside
  refine grown_of_contents h.closed
    ((hclosed h.closed).setIfInBounds label ((htable.mono hsize).put k hcopy)) (by simpa using hsize)
    (fun _ _ => False) (fun _ _ => False.elim) fun label' hlabel => ?_
  rw [content_setIfInBounds]
  split
  · next hsame =>
    obtain ⟨rfl, -⟩ := hsame
    refine .inr ⟨t, _, ht, rfl, fun k' x hx => ⟨x, ?_, .inl rfl⟩⟩
    rw [Table.find?_put, if_neg]
    · exact hx
    · intro hsame
      rw [← Table.find?_congr hsame, hk] at hx
      cases hx
  · exact .inl (hkept label' hlabel)

/-- Giving a label to a table that stands under a key lets all values grow. -/
theorem grown_labelOf (h : HoldsTable label l) (ht : l.content label = .table t)
    (hk : Table.find? t k = some old) {u : Table Value} (hu : l.table? old = some u) :
    Grown l .null (labelOf label t k old l).1 .null ∧
      HoldsTable (labelOf label t k old l).2 (labelOf label t k old l).1 := by
  have htable : Bounded l.size (.table t) := ht ▸ h.closed label h.inside
  have hold : Bounded l.size old := htable.of_find? hk
  cases old with
  | link inner kind =>
    cases hold with
    | link _ hinner =>
      exact ⟨.refl h.closed (.scalar .null), h.closed, hinner, u, table?_eq_some_iff.mp hu⟩
  | table u' =>
    have hsize : l.size < (l.push (.table u')).size := by simp
    have hclosed : Closed (l.push (.table u')) := h.closed.push (hold.mono (Nat.le_succ _))
    have hput : Bounded (l.push (.table u')).size
        (.table (Table.put t k (.link l.size .table))) :=
      (htable.mono (Nat.le_of_lt hsize)).put k (.link .table hsize)
    have hnew : content ((l.push (.table u')).setIfInBounds label
        (.table (Table.put t k (.link l.size .table)))) l.size = .table u' := by
      rw [content_setIfInBounds, if_neg fun hsame => Nat.ne_of_lt h.inside hsame.1, content_push,
        if_pos rfl]
    have hwritten := hclosed.setIfInBounds label hput
    have hlabelled : labelOf label t k (.table u') l = ((l.push (.table u')).setIfInBounds label
        (.table (Table.put t k (.link l.size .table))), l.size) := rfl
    rw [hlabelled]
    refine ⟨grown_of_contents h.closed hwritten (by simp)
      (fun x x' => x = .table u' ∧ x' = .link l.size .table) (fun x x' hx => ?_) fun label' hlabel =>
      ?_, hwritten, by simp, u', hnew⟩
    · obtain ⟨rfl, rfl⟩ := hx
      exact ⟨u', rfl, hnew⟩
    · rw [content_setIfInBounds]
      split
      · next hsame =>
        obtain ⟨rfl, -⟩ := hsame
        refine .inr ⟨t, _, ht, rfl, fun k' x hx => ?_⟩
        rw [Table.find?_put]
        split
        · next hsame =>
          rw [← Table.find?_congr hsame, hk] at hx
          exact ⟨_, rfl, .inr ⟨(Option.some.inj hx).symm, rfl⟩⟩
        · exact ⟨x, hx, .inl rfl⟩
      · rw [content_push, if_neg (Nat.ne_of_lt hlabel)]
        exact .inl rfl
  | _ => cases hu

/-- What one entry of the source leads to lets all values grow, and leaves a table to go on with. -/
def Filling.Grows (source l : Links) : Filling → Prop
  | .settled l' => Grown l .null l' .null
  | .within l' place entries =>
    Grown l .null l' .null ∧ HoldsTable place l' ∧ Bounded source.size (.table entries)

private theorem grows_fillStep (h : HoldsTable label l) (hs : source.Closed)
    {entry : Scalar × Value}
    (he : Bounded source.size entry.2) : (fillStep source label l entry).Grows source l := by
  obtain ⟨t, ht⟩ := h.table
  have hfound : (l.table? (.link label .table)).getD [] = t := by
    rw [Links.table?, ht]
    rfl
  have hkeep : Grown l .null l .null := .refl h.closed (.scalar .null)
  rw [fillStep]
  dsimp only
  rw [hfound]
  cases hk : Table.find? t entry.1 with
  | none => exact grown_putCopy h ht hk hs he
  | some old =>
    dsimp only
    cases hu : l.table? old with
    | none => exact hkeep
    | some u =>
      cases hinner : source.table? entry.2 with
      | none => exact hkeep
      | some inner =>
        obtain ⟨hgrown, hplace⟩ := grown_labelOf h ht hk hu
        exact ⟨hgrown, hplace, hs.table? he hinner⟩

/-- Filling entries under a label lets all values grow, however far it comes. -/
theorem grown_fillUnder (hs : source.Closed) (depth : Nat) {entries : Table Value}
    (h : HoldsTable label l) (he : Bounded source.size (.table entries)) :
    Grown l .null (fillUnder source depth label entries l).reached .null := by
  induction depth generalizing label entries l with
  | zero => exact .refl h.closed (.scalar .null)
  | succ depth ih =>
    rw [fillUnder]
    refine Progress.reached_through (P := HoldsTable label)
      (R := fun l l' => Grown l .null l' .null) (fun h => .refl h.closed (.scalar .null))
      Grown.trans (fun h hg => h.grown hg) (fun entry hentry l h => ?_) h
    have hstep := grows_fillStep h hs (he.of_mem hentry)
    split
    · next l' hf =>
      rw [hf] at hstep
      exact hstep
    · next l' place inner hf =>
      rw [hf] at hstep
      exact hstep.1.trans (ih hstep.2.1 hstep.2.2)

mutual

/-- Without links a table grows when it is filled. -/
theorem grown_fill (hl : l.Closed) : ∀ {t s : Table Value}, Bounded l.size (.table t) →
    Bounded l.size (.table s) → Grown l (.table t) l (.table (fill t s))
  | t, [], ht, _ => by
    rw [fill]
    exact .refl hl ht
  | t, (k, v) :: rest, ht, hs => by
    have hv : Bounded l.size v := hs.of_mem List.mem_cons_self
    have hrest : Bounded l.size (.table rest) :=
      .table fun e he => hs.of_mem (List.mem_cons_of_mem (k, v) he)
    rw [fill]
    split
    · next hk =>
      have hput := Grown.put_absent hl ht hk hv
      exact hput.trans (grown_fill hl hput.bounded hrest)
    · next inner hk =>
      have hput := (grown_fillInto hl (ht.of_find? hk) hv).put_grown ht hk
      exact hput.trans (grown_fill hl hput.bounded hrest)
    · exact grown_fill hl ht hrest

private theorem grown_fillInto (hl : l.Closed) : ∀ {inner : Table Value} {v : Value},
    Bounded l.size (.table inner) → Bounded l.size v → Grown l (.table inner) l (fillInto inner v)
  | inner, .table entries, hi, hv => by
    rw [fillInto]
    exact grown_fill hl hi hv
  | inner, .scalar _, hi, _ | inner, .list _, hi, _ | inner, .pair _ _, hi, _
  | inner, .set _, hi, _ | inner, .link _ _, hi, _ => by
    rw [fillInto]
    · exact .refl hl hi
    · simp

end

/-- A table with links grows when it is filled, however far this comes. -/
theorem grown_fillFrom (target source : Linked) (hl : target.1.Closed)
    (ht : Bounded target.1.size (.table target.2)) (hs : source.1.Closed)
    (he : Bounded source.1.size (.table source.2)) :
    Grown target.1 (.table target.2) (fillFrom target source).reached.1
      (.table (fillFrom target source).reached.2) := by
  obtain ⟨l, t⟩ := target
  obtain ⟨source, entries⟩ := source
  rw [fillFrom]
  split
  · next hempty =>
    obtain ⟨rfl, rfl⟩ : l = #[] ∧ source = #[] := by simpa using hempty
    exact grown_fill hl ht he
  · have hsize : l.size < (l.push (.table t)).size := by simp
    have hbox : HoldsTable l.size (l.push (.table t)) := by
      refine ⟨hl.push (ht.mono (Nat.le_succ _)), hsize, t, ?_⟩
      rw [content_push, if_pos rfl]
    have hpush : Grown l .null (l.push (.table t)) .null := by
      refine grown_of_contents hl hbox.closed (Nat.le_of_lt hsize) (fun _ _ => False)
        (fun _ _ => False.elim) fun label hlabel => .inl ?_
      rw [content_push, if_neg (Nat.ne_of_lt hlabel)]
    have hboxed : Grown l (.table t) (l.push (.table t)) (.link l.size .table) := by
      refine hpush.insert rfl ht (u := t) ?_ (.link .table hsize) fun k x hx => .inl hx
      change content _ _ = _
      rw [content_push, if_pos rfl]
    have hfilled := grown_fillUnder hs mergeDepth hbox he
    obtain ⟨t', ht'⟩ := (hbox.grown hfilled).table
    change Grown l (.table t) (fillUnder source mergeDepth l.size entries
      (l.push (.table t))).reached (.table ((Links.table? _ (.link l.size .table)).getD []))
    rw [Links.table?, ht']
    have hbounded := hfilled.closed _ (hbox.grown hfilled).inside
    rw [ht'] at hbounded
    have hunboxed := (Grown.refl hfilled.closed (.scalar .null)).insert (v := .link l.size .table)
      (w := .table t') ht' hbounded rfl hbounded fun k x hx => .inl hx
    exact hboxed.trans ((hfilled.other (.link .table hsize)).trans hunboxed)

/-! ## Updates -/

/-- All labels in settings are of links that are there. Settings from files are such, and updates
keep them so. -/
structure Closed (s : Settings) : Prop where
  links : s.links.Closed
  shared : Bounded s.links.size (.table s.shared)
  bindings : Bounded s.links.size (.table s.bindings)

/-- Settings have grown into later ones. -/
structure GrowsTo (s s' : Settings) : Prop where
  shared : Grown s.links (.table s.shared) s'.links (.table s'.shared)
  bindings : Grown s.links (.table s.bindings) s'.links (.table s'.bindings)

variable {s s' d : Settings}

namespace GrowsTo

private theorem refl (h : s.Closed) :
    s.GrowsTo s := ⟨.refl h.links h.shared, .refl h.links h.bindings⟩

private theorem trans {s'' : Settings} (h : s.GrowsTo s') (h' : s'.GrowsTo s'') : s.GrowsTo s'' :=
  ⟨h.shared.trans h'.shared, h.bindings.trans h'.bindings⟩

/-- Settings that have grown from closed ones are closed. -/
theorem closed (h : s.GrowsTo s') : s'.Closed :=
  ⟨h.shared.closed, h.shared.bounded, h.bindings.bounded⟩

end GrowsTo

private theorem growsTo_withShared (h : s.Closed) {t : Linked}
    (ht : Grown s.links (.table s.shared) t.1 (.table t.2)) : s.GrowsTo (s.withShared t) :=
  ⟨ht, ht.other h.bindings⟩

private theorem growsTo_withBindings (h : s.Closed) {t : Linked}
    (ht : Grown s.links (.table s.bindings) t.1 (.table t.2)) : s.GrowsTo (s.withBindings t) :=
  ⟨ht.other h.shared, ht⟩

/-- Setting a key that is missing grows the settings. -/
theorem growsTo_setNew (h : s.Closed) (key : String) (hv : Bounded s.links.size v) :
    s.GrowsTo (s.setNew key v) :=
  ⟨.putNew key h.links h.shared hv, .refl h.links h.bindings⟩

/-- The table of a language is bounded in closed settings. -/
theorem Closed.languageTable (h : d.Closed) (language : Scalar) :
    Bounded d.links.size (.table (d.languageTable language)) := by
  rw [Settings.languageTable]
  cases hf : Table.find? d.bindings language with
  | none => exact .empty
  | some v =>
    rw [Option.bind_some]
    cases ht : d.links.table? v with
    | none => exact .empty
    | some t => exact h.links.table? (h.bindings.of_find? hf) ht

/-- The entries that a crate takes for a language lead to links that are there. -/
theorem bounded_inheritedTable (h : d.Closed) (own : Settings) (language : Scalar) :
    Bounded d.links.size (.table (inheritedTable own language (d.languageTable language))) :=
  ((h.languageTable language).filter _).filter _

/-- Taking shared keys grows the settings. -/
theorem growsTo_takeShared (h : s.Closed) (hd : d.Closed) :
    s.GrowsTo (takeShared s d).reached :=
  growsTo_withShared h (grown_fillFrom (_, _) (_, _) h.links h.shared hd.links (hd.shared.filter _))

/-- Taking the keys of a language grows the settings. -/
theorem growsTo_takeLanguage (own : Settings) (hd : d.Closed) (language : Scalar) (h : s.Closed) :
    s.GrowsTo (takeLanguage own d s language).reached := by
  rw [takeLanguage]
  split
  · exact .refl h
  · have hnew : Grown s.links (.table s.bindings) s.links
        (.table (Table.putNew s.bindings language (.table []))) :=
      .putNew language h.links h.bindings .empty
    exact growsTo_withBindings h
      (hnew.trans (grown_fillFrom (_, _) (_, _) h.links hnew.bounded hd.links
        (Labels.single language (bounded_inheritedTable hd own language))))

/-- The recorded name of a module has no links. -/
theorem bounded_recordedName {crate : Scalar} {name : Value}
    (h : recordedName crate d = .ok name) : Bounded 0 name := by
  cases hm : d.moduleName with
  | error f =>
    rw [recordedName, hm] at h
    cases h
  | ok module =>
    rw [recordedName, hm] at h
    cases module with
    | none =>
      obtain rfl := Except.ok.inj h
      exact .scalar crate
    | some text =>
      obtain rfl := Except.ok.inj h
      split <;> exact .scalar _

/-- Recording the module of a dependency grows the settings. -/
theorem growsTo_takeModule (crate : Scalar) (d : Settings) (h : s.Closed) :
    s.GrowsTo (takeModule s crate d).reached := by
  have hset : s.GrowsTo (s.setNew "external_modules" (.table [])) :=
    growsTo_setNew h _ .empty
  rw [takeModule]
  split
  · exact hset
  · split
    · exact hset
    · next name hname =>
      have hentry := Labels.single (.text "external_modules")
        (Labels.single crate (bounded_recordedName hname))
      exact hset.trans (growsTo_withShared hset.closed
        (grown_fillFrom (_, _) (_, _) hset.closed.links hset.closed.shared closed_empty hentry))

/-- Taking the settings of a dependency lets settings grow, however far it comes. -/
theorem growsTo_takeFrom (own : Settings) {e : Scalar × Settings} (hd : e.2.Closed) (h : s.Closed) :
    s.GrowsTo (takeFrom own s e).reached := by
  refine Progress.reached_andThen (growsTo_takeShared h hd) fun s₁ h₁ => ?_
  refine Progress.reached_andThen ?_ fun s₂ h₂ => ?_
  · exact h₁.trans (Progress.reached_through GrowsTo.refl GrowsTo.trans (fun _ => GrowsTo.closed)
      (fun language _ _ => growsTo_takeLanguage own hd language) h₁.closed)
  · refine Progress.reached_andThen (h₂.trans (growsTo_takeModule e.1 e.2 h₂.closed)) ?_
    exact fun s₃ h₃ => ⟨h₃.shared, h₃.bindings⟩

/-- What an update brings along has no labels of its own, and no label that leads nowhere. -/
def Update.Closed : Update → Prop
  | .cdylibName _ => True
  | .names crate namespaceName => Bounded 0 crate ∧ Bounded 0 namespaceName
  | .dependencies settings => ∀ e ∈ settings, e.2.Closed

private theorem growsTo_fromNames (h : s.Closed) {crate namespaceName : Value}
    (hc : Bounded 0 crate)
    (hn : Bounded 0 namespaceName) : s.GrowsTo (s.fromNames crate namespaceName) := by
  have hset {s : Settings} (h : s.Closed) (key : String) {v : Value} (hv : Bounded 0 v) :
      s.GrowsTo (s.setNew key v) := growsTo_setNew h key (hv.mono (Nat.zero_le _))
  have hcrate : s.GrowsTo (if crate.isTruthy then s.setNew "crate_name" crate else s) := by
    split
    · exact hset h _ hc
    · exact .refl h
  rw [fromNames]
  split
  · have hnamed := hcrate.trans (hset hcrate.closed "namespace" hn)
    exact hnamed.trans (hset hnamed.closed "module_name" hn)
  · exact hcrate

/-- An update lets settings grow, whether it fails or not. -/
theorem growsTo_update (h : s.Closed) {u : Update} (hu : u.Closed) : s.GrowsTo (s.update u).1 := by
  cases u with
  | cdylibName name => exact growsTo_setNew h _ (.scalar _)
  | names crate namespaceName => exact growsTo_fromNames h hu.1 hu.2
  | dependencies settings =>
    rw [update, takeAll]
    split
    · exact .refl h
    · have hkept : s.GrowsTo s := .refl h
      have hstart : s.GrowsTo { s with inherited := true } := ⟨hkept.shared, hkept.bindings⟩
      dsimp only
      split
      · exact hstart
      · next sorted hsorted =>
        refine hstart.trans (Progress.reached_through GrowsTo.refl GrowsTo.trans
          (fun _ => GrowsTo.closed) (fun e he _ => growsTo_takeFrom s (hu e ?_)) hstart.closed)
        exact (sortByKey_perm hsorted).mem_iff.mp he

/-- Updates let settings grow. -/
theorem growsTo_after (h : s.Closed) {us : List Update} (hu : ∀ u ∈ us, u.Closed) :
    s.GrowsTo (s.after us) := by
  induction us generalizing s with
  | nil => exact .refl h
  | cons u rest ih =>
    have hfirst := growsTo_update h (hu u List.mem_cons_self)
    exact hfirst.trans (ih hfirst.closed fun v hv => hu v (List.mem_cons_of_mem u hv))

/-! ## Taking settings once -/

private theorem inherited_takeLanguage (own d : Settings) (language : Scalar)
    (h : s.inherited = true) : (takeLanguage own d s language).reached.inherited = true := by
  rw [takeLanguage]
  split <;> exact h

private theorem inherited_takeModule (crate : Scalar) (d : Settings) (h : s.inherited = true) :
    (takeModule s crate d).reached.inherited = true := by
  rw [takeModule]
  split
  · exact h
  · split <;> exact h

private theorem inherited_takeFrom (own : Settings) (e : Scalar × Settings)
    (h : s.inherited = true) : (takeFrom own s e).reached.inherited = true := by
  refine Progress.reached_andThen (Q := fun s : Settings => s.inherited = true) h fun s₁ h₁ => ?_
  refine Progress.reached_andThen (Q := fun s : Settings => s.inherited = true) ?_ fun s₂ h₂ => ?_
  · exact Progress.through_keeps (Q := fun s : Settings => s.inherited = true)
      (fun language _ _ => inherited_takeLanguage own e.2 language) h₁
  · refine Progress.reached_andThen (Q := fun s : Settings => s.inherited = true) ?_ fun _ h₃ => h₃
    exact inherited_takeModule e.1 e.2 h₂

/-- After an attempt to take settings it is noted that there was one. -/
theorem inherited_takeAll (s : Settings) (dependencies : Table Settings) :
    (s.takeAll dependencies).1.inherited = true := by
  rw [takeAll]
  split
  · next h => exact h
  · dsimp only
    split
    · rfl
    · exact Progress.through_keeps (Q := fun s : Settings => s.inherited = true)
        (fun e _ now => inherited_takeFrom s e) rfl

private theorem inherited_update (h : s.inherited = true) (u : Update) :
    (s.update u).1.inherited = true := by
  cases u with
  | cdylibName name => exact h
  | names crate namespaceName =>
    rw [update, fromNames]
    split <;> split <;> exact h
  | dependencies settings => exact inherited_takeAll s settings

private theorem inherited_after (h : s.inherited = true) (us : List Update) :
    (s.after us).inherited = true := by
  induction us generalizing s with
  | nil => exact h
  | cons u rest ih => exact ih (inherited_update h u)

private theorem inherited_after_of_mem {us : List Update} {dependencies : Table Settings}
    (h : .dependencies dependencies ∈ us) : (s.after us).inherited = true := by
  obtain ⟨before, rest, rfl⟩ := List.append_of_mem h
  rw [after, List.foldl_append, List.foldl_cons]
  exact inherited_after (inherited_takeAll _ dependencies) rest

/-- Settings only ever grow. From any point of a sequence of updates to any later one, whatever is
found in the shared settings or in those of a language is kept, whether updates fail or not. Once it
was tried to take the settings of dependencies, a further try is refused and changes nothing. -/
theorem after_grows (hs : s.Closed) {us vs : List Update} (hu : ∀ u ∈ us ++ vs, u.Closed) :
    let now := s.after us
    let later := s.after (us ++ vs)
    now.links.Kept (.table now.shared) later.links (.table later.shared) ∧
    now.links.Kept (.table now.bindings) later.links (.table later.bindings) ∧
    ∀ dependencies, .dependencies dependencies ∈ us → ∀ further,
      now.update (.dependencies further) = (now, some .alreadyInherited) := by
  have hnow := growsTo_after hs fun u hmem => hu u (List.mem_append_left vs hmem)
  have hlater := growsTo_after hnow.closed fun u hmem => hu u (List.mem_append_right us hmem)
  have happend : s.after (us ++ vs) = (s.after us).after vs := List.foldl_append
  dsimp only
  rw [happend]
  refine ⟨hlater.shared.kept, hlater.bindings.kept, fun dependencies hmem further => ?_⟩
  rw [update, takeAll, if_pos (inherited_after_of_mem hmem)]

-- A table that stands under a key and in a list.
private def sharing : Settings where
  root := none
  shared := [(.text "style", .link 0 .table), (.text "profiles", .link 1 .list)]
  bindings := []
  links := #[.table [(.text "width", .int 80)], .list [.link 0 .table]]
  inheritedFrom := []
  inherited := false

-- A dependency that sets a key of the table.
private def styled : Settings :=
  ⟨none, [(.text "style", .table [(.text "indent", .int 4)])], [], #[], [], false⟩

private theorem closed_sharing : sharing.Closed where
  links := by
    intro label hlabel
    change label < 2 at hlabel
    match label, hlabel with
    | 0, _ => exact Labels.single _ (.scalar _)
    | 1, _ =>
      refine .list fun v hv => ?_
      obtain rfl := List.mem_singleton.mp hv
      exact .link .table (by decide)
  shared := (Labels.single (.text "style") (.link .table (by decide))).put (.text "profiles")
    (.link .list (by decide))
  bindings := .empty

private theorem closed_styled : styled.Closed where
  links := closed_empty
  shared := Labels.single _ (Labels.single _ (.scalar _))
  bindings := .empty

private theorem after_sharing : sharing.after [.dependencies [(.text "core", styled)]] =
    (takeFrom sharing { sharing with inherited := true } (.text "core", styled)).reached := by
  have htexts : Table.TextKeyed [(Scalar.text "core", styled)] := by simp [Table.TextKeyed]
  have hsort : sortByKey Prod.fst [(Scalar.text "core", styled)] =
      .ok [(.text "core", styled)] := by
    rw [sortByKey_of_words htexts.worded, sortOn_of_words htexts.worded, List.mergeSort_singleton]
  rw [after, List.foldl_cons, update, takeAll, hsort]
  rfl

/-- A list looks different when a table in it gains a key elsewhere. -/
theorem after_grows_sharing :
    let later := sharing.after [.dependencies [(.text "core", styled)]]
    sharing.links.at? (.table sharing.shared) [.key (.text "profiles")] = some (.link 1 .list) ∧
    later.links.at? (.table later.shared) [.key (.text "profiles")] = some (.link 1 .list) ∧
    ¬sharing.links.Alike (.link 1 .list) later.links (.link 1 .list) := by
  have hu : ∀ u ∈ [] ++ [Update.dependencies [(.text "core", styled)]], u.Closed := by
    intro u hu
    obtain rfl := List.mem_singleton.mp hu
    intro e he
    obtain rfl := List.mem_singleton.mp he
    exact closed_styled
  obtain ⟨hkept, -, -⟩ := after_grows closed_sharing hu
  have hbefore : sharing.links.at? (.table sharing.shared) [.key (.text "profiles")] =
      some (.link 1 .list) := rfl
  refine ⟨hbefore, (hkept.value _ _ hbefore rfl).1, fun halike => ?_⟩
  have hgain := (hkept.alike _ _ hbefore rfl).mp halike [.place 0, .key (.text "indent")]
  rw [List.nil_append, after_sharing] at hgain
  have hnone : (sharing.links.at? (.link 1 .list) [.place 0, .key (.text "indent")]).isSome = false :=
    rfl
  rw [show sharing.after [] = sharing from rfl, hnone] at hgain
  exact absurd (hgain rfl) Bool.false_ne_true

end Settings
end BindGen

import BindGen.Interface.Basic
import BindGen.Proofs.Metadata.Typed
import BindGen.Proofs.Run.Fold

/-!
# Merging declarations of one name

Declarations of one name agree if they differ in their docstrings at most, and in those only where
one has none. Merging succeeds exactly on such declarations. A table tabulates a list of
declarations if it has an entry for every name in the list and no other, and each entry is any of
the declarations of its name under the one docstring among them. Declaring one more keeps a table in
this relation, and fails exactly if the declaration disagrees with an earlier one of its name.
-/

namespace BindGen

open Declaration TypedDeclaration

variable {α : Type} [Declaration α]

namespace Declaration

/-- Declarations agree if they are the same apart from their docstrings, and these are the same too
where both have one. -/
def Agree (a b : α) : Prop :=
  bare a = bare b ∧ (doc a ≠ .null → doc b ≠ .null → doc a = doc b)

/-- The docstring of the first declaration that has one; null if none has. -/
def docAmong (ds : List α) : Value := ((ds.map doc).find? fun v => !v.isNull).getD .null

/-- A declaration agrees with itself. -/
theorem Agree.refl (a : α) : Agree a a := ⟨rfl, fun _ _ => rfl⟩

/-- Agreement of declarations goes both ways. -/
theorem Agree.symm {a b : α} (h : Agree a b) : Agree b a :=
  ⟨h.1.symm, fun hb ha => (h.2 ha hb).symm⟩

private theorem docAmong_nil : docAmong ([] : List α) = .null := rfl

private theorem docAmong_cons (d : α) (ds : List α) :
    docAmong (d :: ds) = if doc d = .null then docAmong ds else doc d := by
  rw [docAmong, List.map_cons, List.find?_cons]
  split
  · next h =>
    have hd : doc d ≠ .null := fun hd => by simp [Value.isNull_iff.mpr hd] at h
    rw [if_neg hd]
    rfl
  · next h =>
    have hd : doc d = .null := Value.isNull_iff.mp (by simpa using h)
    rw [if_pos hd]
    rfl

private theorem docAmong_append (as bs : List α) :
    docAmong (as ++ bs) = if docAmong as = .null then docAmong bs else docAmong as := by
  induction as with
  | nil => rfl
  | cons a as ih =>
    rw [List.cons_append, docAmong_cons, docAmong_cons, ih]
    split
    · rfl
    · rfl

/-- A docstring among declarations is that of one of them. -/
theorem exists_doc_eq_docAmong {ds : List α} (h : docAmong ds ≠ .null) :
    ∃ d ∈ ds, doc d = docAmong ds := by
  induction ds with
  | nil => exact absurd rfl h
  | cons d ds ih =>
    rw [docAmong_cons] at h ⊢
    split at h
    · next hd =>
      obtain ⟨e, he, hdoc⟩ := ih h
      rw [if_pos hd]
      exact ⟨e, List.mem_cons_of_mem _ he, hdoc⟩
    · next hd =>
      rw [if_neg hd]
      exact ⟨d, List.mem_cons_self, rfl⟩

/-- If some declaration has a docstring, there is one among them. -/
theorem docAmong_ne_null {ds : List α} {d : α} (hd : d ∈ ds) (hn : doc d ≠ .null) :
    docAmong ds ≠ .null := by
  induction ds with
  | nil => cases hd
  | cons a ds ih =>
    rw [docAmong_cons]
    split
    · next ha =>
      rcases List.mem_cons.mp hd with rfl | hd
      · exact absurd ha hn
      · exact ih hd
    · next ha => exact ha

/-- Declarations that agree have no other docstring than the one among them. -/
theorem doc_eq_docAmong {ds : List α} (h : ∀ a ∈ ds, ∀ b ∈ ds, Agree a b) {d : α} (hd : d ∈ ds)
    (hn : doc d ≠ .null) : doc d = docAmong ds := by
  have hne := docAmong_ne_null hd hn
  obtain ⟨e, he, hdoc⟩ := exists_doc_eq_docAmong hne
  rw [← hdoc]
  exact (h d hd e he).2 hn (by rw [hdoc]; exact hne)

variable [TypedDeclaration α]

/-- The declarations under a name, in their order. -/
def named (key : Scalar) (ds : List α) : List α :=
  ds.filter fun d => (name d).scalar? = some key

/-- Declarations that are the same apart from their docstrings become one under any docstring. -/
theorem withDocstring_eq_of_bare {a b : α} (h : bare a = bare b) (v : Value) :
    withDocstring a v = withDocstring b v := by
  rw [← withDocstring_withDocstring a .null v, ← withDocstring_withDocstring b .null v]
  exact congrArg (withDocstring · v) h

private theorem bare_withDocstring (d : α) (v : Value) : bare (withDocstring d v) = bare d :=
  withDocstring_withDocstring d v .null

private theorem mem_named {key : Scalar} {ds : List α} {d : α} :
    d ∈ named key ds ↔ d ∈ ds ∧ name d = .scalar key := by
  rw [named, List.mem_filter, decide_eq_true_iff, Value.scalar?_eq_some_iff]

private theorem named_append (key : Scalar) (as bs : List α) :
    named key (as ++ bs) = named key as ++ named key bs :=
  List.filter_append _ _

/-- Typed declarations that agree are equal, or one of them lacks a docstring and the other one is
the same with one. -/
theorem Agree.cases {a b : α} (h : Agree a b) :
    a = b ∨ (doc a = .null ∧ doc b ≠ .null ∧ withDocstring a (doc b) = b) ∨
      (doc b = .null ∧ doc a ≠ .null ∧ withDocstring b (doc a) = a) := by
  have hset (v : Value) := withDocstring_eq_of_bare h.1 v
  have hab : withDocstring a (doc b) = b := by rw [hset, withDocstring_doc]
  have hba : withDocstring b (doc a) = a := by rw [← hset, withDocstring_doc]
  by_cases hd : doc a = doc b
  · left
    rw [← hba, hd, withDocstring_doc]
  · right
    by_cases ha : doc a = .null
    · exact Or.inl ⟨ha, fun hb => hd (by rw [ha, hb]), hab⟩
    · by_cases hb : doc b = .null
      · exact Or.inr ⟨hb, ha, hba⟩
      · exact absurd (h.2 ha hb) hd

/-- In a kind with docstrings a docstring that is set is there. -/
theorem doc_withDocstring {e : α} (he : doc e ≠ .null) (d : α) (v : Value) :
    doc (withDocstring d v) = v := by
  rcases docstring?_cases (α := α) with hn | hd
  · exfalso
    apply he
    rw [doc, (hn e).1]
    rfl
  · exact (hd d).2 v

private theorem isOptionalText_docAmong {ds : List α} (h : ∀ d ∈ ds, isTyped d = true) :
    (docAmong ds).isOptionalText = true := by
  by_cases hn : docAmong ds = .null
  · rw [hn]
    rfl
  · obtain ⟨d, hd, hdoc⟩ := exists_doc_eq_docAmong hn
    rw [← hdoc]
    exact isOptionalText_doc (h d hd)

private theorem undocumentedForm_eq {a b : α} (h : ∃ e : α, docstring? e ≠ none) :
    undocumentedForm a b = ((doc a).isNull && same (withDocstring a (doc b)) b) := by
  rcases docstring?_cases (α := α) with hn | hd
  · obtain ⟨e, he⟩ := h
    exact absurd (hn e).1 he
  · rw [undocumentedForm, (hd a).1, (hd b).1]

omit [TypedDeclaration α] in
private theorem documented_of_doc {a : α} (h : doc a ≠ .null) : ∃ e : α, docstring? e ≠ none := by
  refine ⟨a, fun hn => h ?_⟩
  rw [doc, hn]
  rfl

/-- Declarations that agree merge into the first one under the docstring among them. -/
theorem merge?_of_agree {a b : α} (ha : isTyped a = true) (hb : isTyped b = true)
    (h : Agree a b) : merge? a b = some (withDocstring a (docAmong [a, b])) := by
  rw [docAmong_cons, docAmong_cons, docAmong_nil, merge?]
  rcases h.cases with rfl | ⟨hna, hnb, hset⟩ | ⟨hnb, hna, hset⟩
  · have : (if doc a = .null then if doc a = .null then .null else doc a else doc a) = doc a := by
      split <;> simp_all
    rw [if_pos ((same_iff ha ha).mpr rfl), this, withDocstring_doc]
  · have hne : a ≠ b := by
      rintro rfl
      exact hnb hna
    have hform : undocumentedForm a b = true := by
      rw [undocumentedForm_eq (documented_of_doc hnb), Value.isNull_iff.mpr hna, hset,
        (same_iff hb hb).mpr rfl]
      rfl
    rw [if_neg (fun hs => hne ((same_iff ha hb).mp hs)), if_pos hform, if_pos hna, if_neg hnb, hset]
  · have hne : a ≠ b := by
      rintro rfl
      exact hna hnb
    have hform : undocumentedForm b a = true := by
      rw [undocumentedForm_eq (documented_of_doc hna), Value.isNull_iff.mpr hnb, hset,
        (same_iff ha ha).mpr rfl]
      rfl
    have hother : undocumentedForm a b = false := by
      rw [undocumentedForm_eq (documented_of_doc hna)]
      have : (doc a).isNull = false := by
        rw [Bool.eq_false_iff]
        exact fun hn => hna (Value.isNull_iff.mp hn)
      rw [this, Bool.false_and]
    rw [if_neg (fun hs => hne ((same_iff ha hb).mp hs)), hother, if_neg Bool.false_ne_true,
      if_pos hform, if_neg hna, withDocstring_doc]

private theorem agree_of_undocumentedForm {a b : α} (ha : isTyped a = true) (hb : isTyped b = true)
    (h : undocumentedForm a b = true) : Agree a b := by
  rcases docstring?_cases (α := α) with hn | hd
  · rw [undocumentedForm, (hn a).1] at h
    cases h
  · rw [undocumentedForm_eq ⟨a, by rw [(hd a).1]; simp⟩, Bool.and_eq_true, Value.isNull_iff,
      same_iff (isTyped_withDocstring ha (isOptionalText_doc hb)) hb] at h
    refine ⟨?_, fun hna => absurd h.1 hna⟩
    rw [← h.2, bare_withDocstring]

/-- Only declarations that agree merge. -/
theorem agree_of_merge? {a b m : α} (ha : isTyped a = true) (hb : isTyped b = true)
    (h : merge? a b = some m) : Agree a b := by
  rw [merge?] at h
  split at h
  · next hs =>
    rw [(same_iff ha hb).mp hs]
    exact Agree.refl b
  · split at h
    · next hf => exact agree_of_undocumentedForm ha hb hf
    · split at h
      · next hf => exact (agree_of_undocumentedForm hb ha hf).symm
      · cases h

end Declaration

namespace Interface

variable {t : Table α} {s : String}

/-- A text serves as a key. -/
theorem orFault_asKey (s : String) : orFault (Value.text s).asKey = .ok (.text s) := rfl

/-- Declaring a new name writes it. -/
theorem declare_new (h : t.find? (.text s) = none) (d : α) (label : String) :
    declare t (.text s) d label = .ok (t.put (.text s) d) := by
  rw [declare, orFault_asKey, ok_bind, h]
  rfl

/-- Declaring a known name merges with what is there. -/
theorem declare_known {e : α} (h : t.find? (.text s) = some e) (d : α) (label : String) :
    declare t (.text s) d label =
      match merge? e d with
      | some m => .ok (t.put (.text s) m)
      | none => .error (.conflicting (label ++ s)) := by
  rw [declare, orFault_asKey, ok_bind, h]
  rfl

end Interface

variable [TypedDeclaration α]

/-- A table has the names of declarations, and under each of them the declarations of that name with
the docstring among them. -/
structure Tabulates (t : Table α) (ds : List α) : Prop where
  distinct : t.Distinct
  has_iff : ∀ key, t.has key = true ↔ ∃ d ∈ ds, name d = .scalar key
  agree : ∀ a ∈ ds, ∀ b ∈ ds, name a = name b → Agree a b
  entry : ∀ key e, t.find? key = some e → ∀ d ∈ ds, name d = .scalar key →
    e = withDocstring d (docAmong (named key ds))

namespace Tabulates

variable {t : Table α} {ds : List α} {d : α}

/-- The empty table tabulates no declarations. -/
theorem nil : Tabulates ([] : Table α) ([] : List α) where
  distinct := Table.distinct_nil
  has_iff key := by simp [Table.has]
  agree a ha := by cases ha
  entry key e h := by cases h

private theorem agree_named (h : Tabulates t ds) (key : Scalar) :
    ∀ a ∈ named key ds, ∀ b ∈ named key ds, Agree a b := by
  intro a ha b hb
  obtain ⟨ha, hna⟩ := mem_named.mp ha
  obtain ⟨hb, hnb⟩ := mem_named.mp hb
  exact h.agree a ha b hb (hna.trans hnb.symm)

private theorem exists_named (h : Tabulates t ds) {key : Scalar} {e : α}
    (he : t.find? key = some e) : ∃ c ∈ ds, name c = .scalar key := by
  apply (h.has_iff key).mp
  rw [Table.has, he]
  rfl

-- An entry agrees with what all declarations of its name agree with, and with nothing else.
private theorem agree_entry_iff (h : Tabulates t ds) {key : Scalar} {e : α}
    (he : t.find? key = some e) :
    Agree e d ↔ ∀ c ∈ ds, name c = .scalar key → Agree c d := by
  constructor
  · intro hed c hc hname
    have hec := h.entry key e he c hc hname
    refine ⟨by rw [← hed.1, hec, bare_withDocstring], fun hnc hnd => ?_⟩
    have hdoc := doc_eq_docAmong (h.agree_named key) (mem_named.mpr ⟨hc, hname⟩) hnc
    have hde : doc e = doc c := by rw [hec, doc_withDocstring hnc, hdoc]
    rw [← hde]
    exact hed.2 (by rw [hde]; exact hnc) hnd
  · intro hall
    obtain ⟨c, hc, hname⟩ := h.exists_named he
    have hec := h.entry key e he c hc hname
    refine ⟨by rw [hec, bare_withDocstring, (hall c hc hname).1], fun hne hnd => ?_⟩
    have hde : doc e = docAmong (named key ds) := by rw [hec, doc_withDocstring hne]
    obtain ⟨c', hc', hdoc⟩ := exists_doc_eq_docAmong (by rw [← hde]; exact hne)
    obtain ⟨hc', hname'⟩ := mem_named.mp hc'
    rw [hde, ← hdoc]
    exact (hall c' hc' hname').2 (by rw [hdoc, ← hde]; exact hne) hnd

private theorem put (h : Tabulates t ds) {s : String} (hname : name d = .text s)
    (hall : ∀ c ∈ ds, name c = .text s → Agree c d) :
    Tabulates (t.put (.text s) (withDocstring d (docAmong (named (.text s) (ds ++ [d])))))
      (ds ++ [d]) where
  distinct := Table.distinct_put h.distinct _ _
  has_iff key := by
    rw [Table.has_put, Bool.or_eq_true, h.has_iff]
    constructor
    · rintro (hk | ⟨c, hc, hk⟩)
      · have hk := Scalar.eq_text_of_same (Scalar.same_symm hk)
        exact ⟨d, by simp, by rw [hk]; exact hname⟩
      · exact ⟨c, by simp [hc], hk⟩
    · rintro ⟨c, hc, hk⟩
      rcases List.mem_append.mp hc with hc | hc
      · exact Or.inr ⟨c, hc, hk⟩
      · obtain rfl := List.mem_singleton.mp hc
        rw [hname] at hk
        rw [← Value.scalar.inj hk]
        exact Or.inl (Scalar.same_refl _)
  agree a ha b hb hab := by
    rcases List.mem_append.mp ha with ha | ha <;> rcases List.mem_append.mp hb with hb | hb
    · exact h.agree a ha b hb hab
    · rw [List.mem_singleton.mp hb] at hab ⊢
      exact hall a ha (hab.trans hname)
    · rw [List.mem_singleton.mp ha] at hab ⊢
      exact (hall b hb (hab.symm.trans hname)).symm
    · rw [List.mem_singleton.mp ha, List.mem_singleton.mp hb]
      exact Agree.refl _
  entry key e he c hc hk := by
    -- The docstring among the declarations of a name changes for the new declaration's name only.
    rw [Table.find?_put] at he
    split at he
    · next hs =>
      obtain rfl := Option.some.inj he
      obtain rfl := Scalar.eq_text_of_same (Scalar.same_symm hs)
      refine withDocstring_eq_of_bare ?_ _
      rcases List.mem_append.mp hc with hc | hc
      · exact (hall c hc hk).1.symm
      · rw [List.mem_singleton.mp hc]
    · next hs =>
      have hne : name d ≠ .scalar key := by
        intro hd
        rw [hname] at hd
        rw [← Value.scalar.inj hd, Scalar.same_refl] at hs
        exact hs rfl
      have hnil : named key [d] = [] := by
        rw [List.eq_nil_iff_forall_not_mem]
        intro x hx
        obtain ⟨hx, hxk⟩ := mem_named.mp hx
        rw [List.mem_singleton.mp hx] at hxk
        exact hne hxk
      rw [named_append, hnil, List.append_nil]
      rcases List.mem_append.mp hc with hc | hc
      · exact h.entry key e he c hc hk
      · rw [List.mem_singleton.mp hc] at hk
        exact absurd hk hne

private theorem merged_eq (h : Tabulates t ds) {key : Scalar} {e : α} (hname : name d = .scalar key)
    (he : t.find? key = some e) (hed : Agree e d) :
    withDocstring e (docAmong [e, d]) = withDocstring d (docAmong (named key (ds ++ [d]))) := by
  obtain ⟨c, hc, hcname⟩ := h.exists_named he
  have hec := h.entry key e he c hc hcname
  rw [withDocstring_eq_of_bare hed.1]
  rcases docstring?_cases (α := α) with hn | hd
  · rw [(hn d).2, (hn d).2]
  · have hde : doc e = docAmong (named key ds) := by rw [hec, (hd c).2]
    have hself : named key [d] = [d] := by
      rw [named, List.filter_cons]
      simp [hname, Value.scalar?]
    rw [named_append, hself, docAmong_append, docAmong_cons e, hde]

private theorem isTyped_entry (h : Tabulates t ds) (ht : ∀ c ∈ ds, isTyped c = true) {key : Scalar}
    {e : α} (he : t.find? key = some e) : isTyped e = true := by
  obtain ⟨c, hc, hname⟩ := h.exists_named he
  rw [h.entry key e he c hc hname]
  exact isTyped_withDocstring (ht c hc)
    (isOptionalText_docAmong fun x hx => ht x (mem_named.mp hx).1)

/-- Declaring one more item fails exactly if it disagrees with an earlier one of its name. -/
theorem declare_isOk_iff (h : Tabulates t ds) (ht : ∀ c ∈ ds, isTyped c = true)
    (hd : isTyped d = true) (label : String) :
    (∃ t', Interface.declare t (name d) d label = .ok t') ↔
      ∀ c ∈ ds, name c = name d → Agree c d := by
  obtain ⟨s, hname⟩ := Value.isText_iff.mp (isText_name hd)
  rw [hname]
  cases he : t.find? (.text s) with
  | none =>
    refine ⟨fun _ c hc hk => ?_, fun _ => ⟨_, Interface.declare_new he d label⟩⟩
    have := (h.has_iff (.text s)).mpr ⟨c, hc, hk⟩
    rw [Table.has, he] at this
    cases this
  | some e =>
    -- One comparison with the entry stands for those with all declarations of the name.
    rw [← h.agree_entry_iff he, Interface.declare_known he]
    constructor
    · rintro ⟨t', ht'⟩
      cases hm : merge? e d with
      | some m => exact agree_of_merge? (h.isTyped_entry ht he) hd hm
      | none =>
        rw [hm] at ht'
        cases ht'
    · intro hed
      rw [merge?_of_agree (h.isTyped_entry ht he) hd hed]
      exact ⟨_, rfl⟩

/-- After one more declaration the table tabulates that one too. -/
theorem declare (h : Tabulates t ds) (ht : ∀ c ∈ ds, isTyped c = true) (hd : isTyped d = true)
    {label : String} {t' : Table α} (ht' : Interface.declare t (name d) d label = .ok t') :
    Tabulates t' (ds ++ [d]) := by
  obtain ⟨s, hname⟩ := Value.isText_iff.mp (isText_name hd)
  have hall := (h.declare_isOk_iff ht hd label).mp ⟨t', ht'⟩
  rw [hname] at ht' hall
  have hput := h.put hname hall
  cases he : t.find? (.text s) with
  | none =>
    rw [Interface.declare_new he] at ht'
    obtain rfl := Except.ok.inj ht'
    have hnil : named (.text s) ds = [] := by
      rw [List.eq_nil_iff_forall_not_mem]
      intro c hc
      have := (h.has_iff (.text s)).mpr ⟨c, mem_named.mp hc⟩
      rw [Table.has, he] at this
      cases this
    have hself : named (.text s) [d] = [d] := by
      rw [named, List.filter_cons]
      simp [hname, Value.scalar?]
    have hdoc : docAmong [d] = doc d := by
      rw [docAmong_cons, docAmong_nil]
      split
      · next hn => exact hn.symm
      · rfl
    rw [named_append, hnil, List.nil_append, hself, hdoc, withDocstring_doc] at hput
    exact hput
  | some e =>
    have hed := (h.agree_entry_iff he).mpr hall
    rw [Interface.declare_known he, merge?_of_agree (h.isTyped_entry ht he) hd hed] at ht'
    obtain rfl := Except.ok.inj ht'
    rw [h.merged_eq hname he hed]
    exact hput

/-- A table determines its look-ups: two tables of the same declarations agree on every key. -/
theorem find?_eq {t' : Table α} (h : Tabulates t ds) (h' : Tabulates t' ds) (key : Scalar) :
    t.find? key = t'.find? key := by
  cases he : t.find? key with
  | none =>
    cases he' : t'.find? key with
    | none => rfl
    | some e' =>
      obtain ⟨c, hc, hname⟩ := h'.exists_named he'
      have := (h.has_iff key).mpr ⟨c, hc, hname⟩
      rw [Table.has, he] at this
      cases this
  | some e =>
    obtain ⟨c, hc, hname⟩ := h.exists_named he
    have hhas := (h'.has_iff key).mpr ⟨c, hc, hname⟩
    obtain ⟨e', he'⟩ := Option.isSome_iff_exists.mp hhas
    rw [he', h.entry key e he c hc hname, h'.entry key e' he' c hc hname]

/-- The order of the declarations does not matter. -/
theorem perm {ds' : List α} (h : Tabulates t ds) (hp : ds.Perm ds') : Tabulates t ds' where
  distinct := h.distinct
  has_iff key := by
    rw [h.has_iff]
    exact ⟨fun ⟨d, hd, hk⟩ => ⟨d, hp.mem_iff.mp hd, hk⟩,
      fun ⟨d, hd, hk⟩ => ⟨d, hp.mem_iff.mpr hd, hk⟩⟩
  agree a ha b hb := h.agree a (hp.mem_iff.mpr ha) b (hp.mem_iff.mpr hb)
  entry key e he c hc hk := by
    rw [h.entry key e he c (hp.mem_iff.mpr hc) hk]
    have hmem (x : α) : x ∈ named key ds ↔ x ∈ named key ds' := by
      rw [mem_named, mem_named, hp.mem_iff]
    have hagree : ∀ a ∈ named key ds', ∀ b ∈ named key ds', Agree a b := fun a ha b hb =>
      h.agree_named key a ((hmem a).mpr ha) b ((hmem b).mpr hb)
    congr 1
    by_cases hn : docAmong (named key ds) = .null
    · by_cases hn' : docAmong (named key ds') = .null
      · rw [hn, hn']
      · obtain ⟨x, hx, hdoc⟩ := exists_doc_eq_docAmong hn'
        have hxn : doc x ≠ .null := by rw [hdoc]; exact hn'
        exact absurd hn (docAmong_ne_null ((hmem x).mpr hx) hxn)
    · obtain ⟨x, hx, hdoc⟩ := exists_doc_eq_docAmong hn
      rw [← hdoc]
      exact doc_eq_docAmong hagree ((hmem x).mp hx) (by rw [hdoc]; exact hn)

end Tabulates
end BindGen

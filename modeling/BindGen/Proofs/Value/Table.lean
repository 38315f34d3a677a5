import BindGen.Value.Table
import Mathlib.Data.List.Forall2

/-!
# Tables with pairwise different keys

What look-ups tell about a table. In a table without two keys that are the same, an entry is found
exactly if it is there, so look-ups do not depend on the order of the entries. Two such tables whose
keys are texts have the same entries as soon as their look-ups agree.
-/

namespace BindGen

namespace Scalar

/-- A scalar that is the same as a text is that text. -/
theorem eq_text_of_same {a : Scalar} {s : String} (h : a.same (.text s) = true) : a = .text s := by
  rw [same_iff] at h
  cases a with
  | text t => simpa [identity] using h
  | float x =>
    cases hx : x.toInt? <;> simp [identity, hx] at h
  | moment m =>
    rcases m with d | c | ⟨d, c, _ | offset⟩ <;> simp [identity] at h
  | _ => simp [identity] at h

/-- A scalar that is a text, broken or not. -/
abbrev IsWord (a : Scalar) : Prop := ∃ t : LooseText, a = t.scalar

/-- A text of characters is a text. -/
@[simp] theorem isWord_text (s : String) : (text s).IsWord := ⟨s, rfl⟩

/-- A text is found as the text that it is. -/
@[simp] theorem word?_scalar (t : LooseText) : t.scalar.word? = some t := by cases t <;> rfl

/-- A scalar that is the same as a broken text is that text. -/
theorem eq_broken_of_same {a : Scalar} {t : BrokenText} (h : a.same (.broken t) = true) :
    a = .broken t := by
  rw [same_iff] at h
  cases a with
  | broken u => simpa [identity] using h
  | float x =>
    cases hx : x.toInt? <;> simp [identity, hx] at h
  | moment m =>
    rcases m with d | c | ⟨d, c, _ | offset⟩ <;> simp [identity] at h
  | _ => simp [identity] at h

/-- A scalar that is the same as a text of either sort is that text. -/
theorem eq_scalar_of_same {a : Scalar} {t : LooseText} (h : a.same t.scalar = true) :
    a = t.scalar := by
  cases t with
  | proper s => exact eq_text_of_same h
  | broken t => exact eq_broken_of_same h

/-- Being the same is symmetric. -/
theorem same_symm {a b : Scalar} (h : a.same b = true) : b.same a = true := by
  rw [same_comm]
  exact h

/-- Scalars that are the same are the same as the same ones. -/
theorem same_congr_left {a b : Scalar} (h : a.same b = true) (c : Scalar) :
    a.same c = b.same c := by
  rw [same_iff] at h
  simp only [same, h]

end Scalar

namespace Table

variable {α β : Type}

/-- No two keys of the table are the same. -/
def Distinct (t : Table α) : Prop := t.Pairwise fun a b => a.1.same b.1 = false

/-- Every key of the table is a text. -/
def TextKeyed (t : Table α) : Prop := ∀ e ∈ t, ∃ s : String, e.1 = .text s

/-- Every key of the table is a text, broken or not. -/
def Worded (t : Table α) : Prop := ∀ e ∈ t, e.1.IsWord

/-- A table keyed by texts is worded. -/
theorem TextKeyed.worded {t : Table α} (h : TextKeyed t) : Worded t := by
  intro e he
  obtain ⟨s, hs⟩ := h e he
  exact ⟨s, hs⟩

/-- The empty table has no key twice. -/
theorem distinct_nil : Distinct ([] : Table α) := List.Pairwise.nil

/-- The empty table is worded. -/
theorem worded_nil : Worded ([] : Table α) := List.forall_mem_nil _

/-- The empty table is keyed by texts. -/
theorem textKeyed_nil : TextKeyed ([] : Table α) := by
  intro e he
  cases he

/-- What a look-up finds is an entry of the table. -/
theorem mem_of_find? {t : Table α} {key : Scalar} {v : α} (h : find? t key = some v) :
    ∃ k, (k, v) ∈ t ∧ k.same key = true := by
  induction t with
  | nil => simp at h
  | cons e rest ih =>
    obtain ⟨k, w⟩ := e
    rw [find?] at h
    split at h
    · next hk =>
      obtain rfl := Option.some.inj h
      exact ⟨k, List.mem_cons_self, hk⟩
    · obtain ⟨k', hm, hk'⟩ := ih h
      exact ⟨k', List.mem_cons_of_mem _ hm, hk'⟩

/-- Every entry of a table without two keys that are the same is found. -/
theorem find?_of_mem {t : Table α} (ht : Distinct t) {k key : Scalar} {v : α} (hm : (k, v) ∈ t)
    (hk : k.same key = true) : find? t key = some v := by
  induction t with
  | nil => cases hm
  | cons e rest ih =>
    obtain ⟨k', w⟩ := e
    obtain ⟨hhead, htail⟩ := List.pairwise_cons.mp ht
    rw [find?]
    rcases List.mem_cons.mp hm with he | hm
    · obtain ⟨rfl, rfl⟩ := Prod.mk.inj he
      rw [if_pos hk]
    · have hne : k'.same key = false := by
        rw [Scalar.same_comm, ← Scalar.same_congr_left hk, Scalar.same_comm]
        exact hhead (k, v) hm
      rw [hne]
      exact ih htail hm

/-- A key is present if some key of the table is the same. -/
theorem has_iff {t : Table α} {key : Scalar} :
    has t key = true ↔ ∃ e ∈ t, e.1.same key = true := by
  induction t with
  | nil => simp [has]
  | cons e rest ih =>
    obtain ⟨k, v⟩ := e
    rw [has] at ih
    rw [has, find?]
    split
    · next hk => simp [hk]
    · next hk => simp [ih, hk]

/-- No look-up finds an absent key. -/
theorem find?_eq_none_iff {t : Table α} {key : Scalar} :
    find? t key = none ↔ ∀ e ∈ t, e.1.same key = false := by
  have h := @has_iff _ t key
  rw [has] at h
  constructor
  · intro hn e he
    cases hs : e.1.same key with
    | false => rfl
    | true => simp [hn] at h; exact absurd hs (by simp [h e.1 e.2 he])
  · intro hn
    cases hf : find? t key with
    | none => rfl
    | some v =>
      obtain ⟨e, he, hk⟩ := h.mp (by rw [hf]; rfl)
      rw [hn e he] at hk
      cases hk

/-- A look-up among the entries with certain keys. -/
theorem find?_filter {p : Scalar → Bool} (hp : ∀ a b, a.same b = true → p a = p b) (t : Table α)
    (key : Scalar) : find? (t.filter fun e => p e.1) key = if p key then find? t key else none := by
  induction t with
  | nil => split <;> rfl
  | cons e rest ih =>
    obtain ⟨k, v⟩ := e
    rw [List.filter_cons, find?]
    by_cases hsame : k.same key = true
    · rw [hp k key hsame, if_pos hsame]
      by_cases hkey : p key = true
      · rw [if_pos hkey, if_pos hkey, find?, if_pos hsame]
      · rw [if_neg hkey, if_neg hkey, ih, if_neg hkey]
    · rw [if_neg hsame, ← ih]
      split
      · rw [find?, if_neg hsame]
      · rfl

/-- A look-up in two tables, one behind the other. -/
theorem find?_append (t u : Table α) (key : Scalar) :
    find? (t ++ u) key = (find? t key).or (find? u key) := by
  induction t with
  | nil => rfl
  | cons e rest ih =>
    rw [List.cons_append, find?, find?]
    split
    · rfl
    · exact ih

/-- A look-up after a write. -/
theorem find?_put (t : Table α) (key key' : Scalar) (v : α) :
    find? (put t key v) key' = if key.same key' then some v else find? t key' := by
  split
  · next h => exact find?_put_same h
  · next h => exact find?_put_of_ne (by simpa using h)

/-- The keys that are present after a write. -/
theorem has_put (t : Table α) (key key' : Scalar) (v : α) :
    has (put t key v) key' = (key.same key' || has t key') := by
  rw [has, find?_put]
  split
  · next h => simp [h]
  · next h => simp [h, has]

/-- Keys that are the same are present together. -/
theorem has_congr {t : Table α} {a b : Scalar} (h : a.same b = true) : has t a = has t b := by
  rw [has, has, find?_congr h]

/-- A look-up after a key has been taken out. -/
theorem find?_remove {t : Table α} (ht : Distinct t) (key key' : Scalar) :
    find? (remove t key) key' = if key.same key' then none else find? t key' := by
  induction t with
  | nil => simp [remove]
  | cons e rest ih =>
    obtain ⟨k, v⟩ := e
    obtain ⟨hhead, htail⟩ := List.pairwise_cons.mp ht
    rw [remove]
    by_cases hk : k.same key = true
    · rw [if_pos hk]
      by_cases hkey : key.same key' = true
      · rw [if_pos hkey, find?_eq_none_iff]
        intro e he
        rw [Scalar.same_comm, ← Scalar.same_congr_left (Scalar.same_trans hk hkey)]
        exact hhead e he
      · rw [if_neg hkey, find?, if_neg]
        rw [Scalar.same_congr_left hk]
        exact hkey
    · rw [if_neg hk, find?, find?, ih htail]
      by_cases hk' : k.same key' = true
      · have hkey : ¬key.same key' = true := fun h =>
          hk (Scalar.same_trans hk' (Scalar.same_symm h))
        rw [if_pos hk', if_pos hk', if_neg hkey]
      · rw [if_neg hk', if_neg hk']

/-- Taking a key out adds nothing. -/
theorem mem_of_mem_remove {t : Table α} {key : Scalar} {e : Scalar × α} (h : e ∈ remove t key) :
    e ∈ t := by
  induction t with
  | nil => cases h
  | cons x rest ih =>
    rw [remove] at h
    split at h
    · exact List.mem_cons_of_mem x h
    · rcases List.mem_cons.mp h with rfl | h
      · exact List.mem_cons_self
      · exact List.mem_cons_of_mem x (ih h)

/-- A write adds its entry at most. -/
theorem mem_put {t : Table α} {key : Scalar} {v : α} {e : Scalar × α} (h : e ∈ put t key v) :
    e.1 = key ∨ ∃ w, (e.1, w) ∈ t := by
  induction t with
  | nil =>
    obtain rfl := List.mem_singleton.mp h
    exact Or.inl rfl
  | cons x rest ih =>
    obtain ⟨k, old⟩ := x
    rw [put] at h
    split at h
    · rcases List.mem_cons.mp h with rfl | h
      · exact Or.inr ⟨old, List.mem_cons_self⟩
      · exact Or.inr ⟨e.2, List.mem_cons_of_mem _ h⟩
    · rcases List.mem_cons.mp h with rfl | h
      · exact Or.inr ⟨old, List.mem_cons_self⟩
      · rcases ih h with h | ⟨w, h⟩
        · exact Or.inl h
        · exact Or.inr ⟨w, List.mem_cons_of_mem _ h⟩

/-- A write adds no other value. -/
theorem snd_of_mem_put {t : Table α} {key : Scalar} {v : α} {e : Scalar × α}
    (h : e ∈ put t key v) : e.2 = v ∨ e ∈ t := by
  induction t with
  | nil =>
    obtain rfl := List.mem_singleton.mp h
    exact Or.inl rfl
  | cons x rest ih =>
    obtain ⟨k, old⟩ := x
    rw [put] at h
    split at h
    · rcases List.mem_cons.mp h with rfl | h
      · exact Or.inl rfl
      · exact Or.inr (List.mem_cons_of_mem _ h)
    · rcases List.mem_cons.mp h with rfl | h
      · exact Or.inr List.mem_cons_self
      · exact (ih h).imp_right (List.mem_cons_of_mem _)

/-- An entry under another key than the one that is written was there before. -/
theorem mem_of_mem_put {t : Table α} {key : Scalar} {v : α} {e : Scalar × α}
    (h : e ∈ put t key v) (hne : key.same e.1 = false) : e ∈ t := by
  induction t with
  | nil =>
    obtain rfl := List.mem_singleton.mp h
    rw [Scalar.same_refl] at hne
    cases hne
  | cons x rest ih =>
    obtain ⟨k, old⟩ := x
    rw [put] at h
    split at h
    · next hsame =>
      rcases List.mem_cons.mp h with rfl | h
      · rw [Scalar.same_comm, hsame] at hne
        cases hne
      · exact List.mem_cons_of_mem _ h
    · rcases List.mem_cons.mp h with rfl | h
      · exact List.mem_cons_self
      · exact List.mem_cons_of_mem _ (ih h)

/-- A write keeps the keys pairwise different. -/
theorem distinct_put {t : Table α} (ht : Distinct t) (key : Scalar) (v : α) :
    Distinct (put t key v) := by
  induction t with
  | nil => exact List.pairwise_singleton _ _
  | cons x rest ih =>
    obtain ⟨k, old⟩ := x
    obtain ⟨hhead, htail⟩ := List.pairwise_cons.mp ht
    rw [put]
    split
    · exact List.pairwise_cons.mpr ⟨hhead, htail⟩
    · next hk =>
      refine List.pairwise_cons.mpr ⟨?_, ih htail⟩
      intro e he
      rcases mem_put he with h | ⟨w, h⟩
      · simpa [h] using hk
      · exact hhead (e.1, w) h

/-- The keys of a table whose keys are texts, as strings. -/
theorem TextKeyed.exists_keys {t : Table α} (ht : TextKeyed t) :
    ∃ names : List String, keys t = names.map Scalar.text := by
  induction t with
  | nil => exact ⟨[], rfl⟩
  | cons e rest ih =>
    obtain ⟨name, hname⟩ := ht e List.mem_cons_self
    obtain ⟨names, hnames⟩ := ih fun x hx => ht x (List.mem_cons_of_mem e hx)
    refine ⟨name :: names, ?_⟩
    rw [List.map_cons, ← hname, ← hnames]
    rfl

/-- A worded table stays so with a word put into it. -/
theorem worded_put {t : Table α} (ht : Worded t) {key : Scalar} (hkey : key.IsWord) (v : α) :
    Worded (put t key v) := by
  intro e he
  rcases mem_put he with rfl | ⟨w, h⟩
  · exact hkey
  · exact ht (e.1, w) h

/-- Writing a new key appends it. -/
theorem put_of_find?_none {t : Table α} {key : Scalar} (h : find? t key = none) (v : α) :
    put t key v = t ++ [(key, v)] := by
  induction t with
  | nil => rfl
  | cons e rest ih =>
    obtain ⟨k, w⟩ := e
    rw [find?] at h
    split at h
    · cases h
    · next hk =>
      rw [put, if_neg hk, ih h]
      rfl

/-- The keys stay pairwise different when the entries are permuted. -/
theorem Distinct.perm {t t' : Table α} (ht : Distinct t) (h : t.Perm t') : Distinct t' :=
  h.pairwise ht fun {a b} hab => by rw [Scalar.same_comm]; exact hab

/-- Look-ups do not depend on the order of the entries. -/
theorem find?_perm {t t' : Table α} (ht : Distinct t) (h : t.Perm t') (key : Scalar) :
    find? t key = find? t' key := by
  cases hf : find? t' key with
  | some v =>
    obtain ⟨k, hm, hk⟩ := mem_of_find? hf
    exact find?_of_mem ht (h.mem_iff.mpr hm) hk
  | none =>
    rw [find?_eq_none_iff] at hf ⊢
    exact fun e he => hf e (h.mem_iff.mp he)

/-- Writing commutes with replacing the values. -/
theorem mapValues_put (f : α → β) (t : Table α) (key : Scalar) (v : α) :
    mapValues f (put t key v) = put (mapValues f t) key (f v) := by
  induction t with
  | nil => rfl
  | cons e rest ih =>
    obtain ⟨k, w⟩ := e
    rw [put]
    split
    · next hk => simp [mapValues, put, hk]
    · next hk =>
      simp only [mapValues] at ih
      simp [mapValues, put, hk, ih]

/-- Writing what is there changes nothing. -/
theorem put_of_find?_some {t : Table α} {key : Scalar} {v : α} (h : find? t key = some v) :
    put t key v = t := by
  induction t with
  | nil => cases h
  | cons e rest ih =>
    obtain ⟨k, w⟩ := e
    rw [find?] at h
    split at h
    · next hk =>
      obtain rfl := Option.some.inj h
      rw [put, if_pos hk]
    · next hk => rw [put, if_neg hk, ih h]

/-- Replacing the values keeps the keys pairwise different. -/
theorem Distinct.mapValues {t : Table α} (ht : Distinct t) (f : α → β) :
    Distinct (mapValues f t) :=
  List.pairwise_map.mpr ht

/-- Replacing the values keeps the keys texts. -/
theorem TextKeyed.mapValues {t : Table α} (ht : TextKeyed t) (f : α → β) :
    TextKeyed (mapValues f t) := by
  intro e he
  obtain ⟨x, hx, rfl⟩ := List.mem_map.mp he
  exact ht x hx

/-- A worded table stays so when its values change. -/
theorem Worded.mapValues {t : Table α} (ht : Worded t) (f : α → β) : Worded (mapValues f t) := by
  intro e he
  obtain ⟨x, hx, rfl⟩ := List.mem_map.mp he
  exact ht x hx

/-- A table without a key twice has no entry twice. -/
theorem nodup_of_distinct {t : Table α} (ht : Distinct t) : t.Nodup := by
  refine ht.imp ?_
  intro a b hab he
  subst he
  rw [Scalar.same_refl] at hab
  cases hab

private theorem mem_of_find?_word {t : Table α} {w : LooseText} {v : α}
    (h : find? t w.scalar = some v) : (w.scalar, v) ∈ t := by
  obtain ⟨k, hm, hs⟩ := mem_of_find? h
  rw [← Scalar.eq_scalar_of_same hs]
  exact hm

private theorem mem_of_find?_eq {t t' : Table α} (ht : Distinct t) (hk : Worded t)
    (h : ∀ key, find? t key = find? t' key) {e : Scalar × α} (he : e ∈ t) : e ∈ t' := by
  obtain ⟨w, hw⟩ := hk e he
  have hf := find?_of_mem ht (k := e.1) (v := e.2) he (Scalar.same_refl _)
  rw [h, hw] at hf
  have hmem := mem_of_find?_word hf
  rwa [← hw] at hmem

/-- Tables with texts as keys have the same entries if their look-ups agree. -/
theorem perm_of_find? {t t' : Table α} (ht : Distinct t) (ht' : Distinct t') (hk : Worded t)
    (hk' : Worded t') (h : ∀ key, find? t key = find? t' key) : t.Perm t' :=
  (List.perm_ext_iff_of_nodup (nodup_of_distinct ht) (nodup_of_distinct ht')).mpr fun _ =>
    ⟨mem_of_find?_eq ht hk h, mem_of_find?_eq ht' hk' fun key => (h key).symm⟩

/-- The values of tables with the same keys are related one by one exactly if what they have under
each key is related. -/
theorem forall₂_values_iff {R : α → β → Prop} {t : Table α} {t' : Table β} (ht : Distinct t)
    (ht' : Distinct t') (hk : keys t = keys t') :
    List.Forall₂ R (values t) (values t') ↔
      ∀ key a b, find? t key = some a → find? t' key = some b → R a b := by
  induction t generalizing t' with
  | nil =>
    obtain rfl := List.map_eq_nil_iff.mp hk.symm
    exact ⟨fun _ _ _ _ ha => (nomatch ha), fun _ => .nil⟩
  | cons e t ih =>
    obtain ⟨k, a⟩ := e
    obtain ⟨⟨k', b⟩, t', rfl, rfl : k' = k, hrest⟩ := List.map_eq_cons_iff.mp hk.symm
    obtain ⟨hnew, ht⟩ := List.pairwise_cons.mp ht
    obtain ⟨hnew', ht'⟩ := List.pairwise_cons.mp ht'
    have hlater {γ : Type} {u : Table γ} (hu : ∀ e ∈ u, k'.same e.1 = false) {key : Scalar} {c : γ}
        (hc : find? u key = some c) : k'.same key = false := by
      obtain ⟨x, hx, hsame⟩ := mem_of_find? hc
      rw [Scalar.same_comm, ← Scalar.same_congr_left hsame, Scalar.same_comm]
      exact hu _ hx
    change List.Forall₂ R (a :: values t) (b :: values t') ↔ _
    rw [List.forall₂_cons, ih ht ht' hrest.symm]
    constructor
    · rintro ⟨hab, hrest⟩ key x y hx hy
      rw [find?] at hx hy
      by_cases hkey : k'.same key = true
      · rw [if_pos hkey] at hx hy
        rwa [← Option.some.inj hx, ← Option.some.inj hy]
      · rw [if_neg hkey] at hx hy
        exact hrest key x y hx hy
    · intro h
      refine ⟨h k' a b ?_ ?_, fun key x y hx hy => h key x y ?_ ?_⟩
      · rw [find?, if_pos (Scalar.same_refl k')]
      · rw [find?, if_pos (Scalar.same_refl k')]
      · rw [find?, hlater hnew hx]
        exact hx
      · rw [find?, hlater hnew' hy]
        exact hy

end Table
end BindGen

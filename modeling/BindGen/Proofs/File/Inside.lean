import BindGen.Proofs.File.Twins
import BindGen.Proofs.Text.Pieces

/-!
# Paths inside a directory

A path is inside a directory if it is the directory followed by components none of which is a double
dot. Such a path leads to a place below the one that the directory has. Texts that are read below a
directory, one after the other, stay inside whatever directory that is if and only if each of them
is relative and has no double dot.
-/

namespace BindGen

namespace Path

/-- A path is a directory followed by components none of which steps back. -/
def Inside (p d : Path) : Prop := ∃ rest, p = ⟨d.root, d.parts ++ rest⟩ ∧ ".." ∉ rest

/-- A path goes down from wherever it is seen: it is relative and never steps back. -/
structure Descends (p : Path) : Prop where
  relative : p.isAbsolute = false
  forward : ".." ∉ p.parts

variable {d p : Path} {texts : List String}

private theorem append_of_relative (d : Path) (h : p.isAbsolute = false) :
    d.append p = ⟨d.root, d.parts ++ p.parts⟩ := by
  simp [append, h]

@[simp] private theorem isAbsolute_append (d p : Path) :
    (d.append p).isAbsolute = (d.isAbsolute || p.isAbsolute) := by
  cases h : p.isAbsolute
  · rw [append_of_relative d h]
    simp [isAbsolute]
  · simp [append, h]

/-- Texts read one below the other lead to an absolute path if one of them or the start does. -/
theorem isAbsolute_foldl_below (d : Path) (texts : List String) :
    (texts.foldl below d).isAbsolute =
      (d.isAbsolute || texts.any fun s => (ofText s).isAbsolute) := by
  induction texts generalizing d with
  | nil => simp
  | cons s texts ih =>
    rw [List.foldl_cons, ih, below, isAbsolute_append, List.any_cons, Bool.or_assoc]

/-- Relative texts read one below the other put their components behind those of the start. -/
theorem foldl_below (d : Path) (h : ∀ s ∈ texts, (ofText s).isAbsolute = false) :
    texts.foldl below d = ⟨d.root, d.parts ++ texts.flatMap components⟩ := by
  induction texts generalizing d with
  | nil => simp
  | cons s texts ih =>
    have hs : (ofText s).isAbsolute = false := h s List.mem_cons_self
    rw [List.foldl_cons, ih _ fun s hs => h s (List.mem_cons_of_mem _ hs), below,
      append_of_relative d hs, List.flatMap_cons, ← List.append_assoc]
    rfl

/-- Texts that each go down stay inside every directory. -/
theorem inside_foldl_below (d : Path) (h : ∀ s ∈ texts, (ofText s).Descends) :
    (texts.foldl below d).Inside d := by
  refine ⟨texts.flatMap components, foldl_below d fun s hs => (h s hs).relative, ?_⟩
  intro hback
  obtain ⟨s, hs, hback⟩ := List.mem_flatMap.mp hback
  exact (h s hs).forward hback

/-- Texts that stay inside a relative directory each go down. -/
theorem descends_of_inside_foldl_below (hd : d.isAbsolute = false)
    (h : (texts.foldl below d).Inside d) : ∀ s ∈ texts, (ofText s).Descends := by
  obtain ⟨rest, hpath, hrest⟩ := h
  have hrelative : ∀ s ∈ texts, (ofText s).isAbsolute = false := by
    have hnone := isAbsolute_foldl_below d texts
    rw [hpath, hd, Bool.false_or] at hnone
    have hsame : (⟨d.root, d.parts ++ rest⟩ : Path).isAbsolute = false := hd
    rw [hsame, eq_comm, List.any_eq_false] at hnone
    simpa using hnone
  rw [foldl_below d hrelative, Path.mk.injEq, List.append_cancel_left_eq] at hpath
  intro s hs
  refine ⟨hrelative s hs, fun hback => hrest ?_⟩
  rw [← hpath.2]
  exact List.mem_flatMap.mpr ⟨s, hs, hback⟩

/-! ## Texts as paths -/

/-- A text is an absolute path if it starts with a slash. -/
theorem isAbsolute_ofText (s : List Char) :
    (ofText (String.ofList s)).isAbsolute = (s.head? == some '/') := by
  rw [isAbsolute, ofText, String.toList_ofList, slashes.eq_def]
  split
  · rfl
  · rfl
  · rfl
  · next hslash =>
    rcases s with _ | ⟨c, s⟩
    · rfl
    · have hc : (c == '/') = false := beq_eq_false_iff_ne.mpr fun hc => hslash s (hc ▸ rfl)
      change _ = (c == '/')
      rw [hc]
      rfl

/-- The double dots in a path are the pieces of its text that are double dots. -/
theorem back_mem_components (s : List Char) :
    ".." ∈ components (String.ofList s) ↔ ['.', '.'] ∈ Text.cut (· == '/') s := by
  rw [components, String.toList_ofList, List.mem_map]
  constructor
  · rintro ⟨piece, hpiece, hback⟩
    obtain rfl : piece = ['.', '.'] := String.ofList_injective hback
    exact (List.mem_filter.mp hpiece).1
  · intro hpiece
    exact ⟨['.', '.'], List.mem_filter.mpr ⟨hpiece, rfl⟩, rfl⟩

end Path

namespace Tree

variable {t : Tree} {d p : Path} {x q : List String}

-- What leads on from a directory first leads to the directory.
private theorem exists_follow_append {start front rest : List String} (hrest : rest ≠ [])
    (h : t.follow start (front ++ rest) = .ok q) :
    ∃ x, t.follow start front = .ok x ∧ t.follow x rest = .ok q := by
  obtain ⟨d, rest, rfl⟩ := List.exists_cons_of_ne_nil hrest
  induction front generalizing start with
  | nil => exact ⟨start, rfl, h⟩
  | cons c front ih =>
    obtain ⟨e, back, hback⟩ := List.exists_cons_of_ne_nil
      (List.append_ne_nil_of_right_ne_nil front hrest)
    rw [List.cons_append, hback, follow_cons] at h
    split at h
    · cases h
    · next hlong =>
      split at h
      · next hdir =>
        rw [← hback] at h
        cases front with
        | nil =>
          refine ⟨next start c, ?_, h⟩
          rw [follow.eq_def]
          simp only [if_neg hlong]
          rfl
        | cons e' front =>
          rw [follow_cons, if_neg hlong, hdir]
          exact ih h
      · cases h
      · cases h

-- Components without double dots lead downwards.
private theorem prefix_of_follow {start components : List String} (hback : ".." ∉ components)
    (h : t.follow start components = .ok q) : start <+: q := by
  induction components generalizing start with
  | nil =>
    obtain rfl := Except.ok.inj h
    exact List.prefix_refl start
  | cons c rest ih =>
    have hc : c ≠ ".." := fun hc => hback (hc ▸ List.mem_cons_self)
    have hnext : start <+: next start c := by
      rw [next, if_neg hc]
      exact List.prefix_append start [c]
    cases rest with
    | nil =>
      rw [follow.eq_def] at h
      simp only at h
      split at h
      · cases h
      · rw [← Except.ok.inj h]
        exact List.prefix_append start [c]
    | cons d rest =>
      rw [follow_cons] at h
      split at h
      · cases h
      · split at h
        · exact hnext.trans (ih (fun hmem => hback (List.mem_cons_of_mem c hmem)) h)
        · cases h
        · cases h

private theorem exists_components_of_locate (h : t.locate p = .ok q) :
    ∃ components, t.componentsBelow? p = some components ∧ t.follow [] components = .ok q := by
  rw [locate] at h
  split at h
  · cases h
  · split at h
    · cases h
    · split at h
      · next components hc => exact ⟨components, hc, h⟩
      · cases h

private theorem componentsBelow?_append {components : List String}
    (h : t.componentsBelow? d = some components) (rest : List String) :
    t.componentsBelow? ⟨d.root, d.parts ++ rest⟩ = some (components ++ rest) := by
  rw [componentsBelow?] at h ⊢
  split at h
  · next hroot =>
    obtain rfl := Option.some.inj h
    exact if_pos hroot
  · next hroot =>
    split at h
    · next hhome =>
      obtain rfl := Option.some.inj h
      rw [Bool.and_eq_true, List.isPrefixOf_iff_prefix] at hhome
      obtain ⟨hsame, hstart⟩ := hhome
      have hlonger : t.home.parts.isPrefixOf (d.parts ++ rest) = true :=
        List.isPrefixOf_iff_prefix.mpr (hstart.trans (List.prefix_append d.parts rest))
      rw [if_neg hroot, if_pos (by rw [hsame, hlonger]; rfl),
        List.drop_append_of_le_length hstart.length_le]
    · cases h

/-- A path inside a directory leads to a place below the one that the directory leads to. -/
theorem prefix_of_inside (hp : p.Inside d) (hd : t.locate d = .ok x) (hq : t.locate p = .ok q) :
    x <+: q := by
  obtain ⟨rest, rfl, hback⟩ := hp
  obtain ⟨components, hc, hd⟩ := exists_components_of_locate hd
  obtain ⟨longer, hl, hq⟩ := exists_components_of_locate hq
  rw [componentsBelow?_append hc] at hl
  obtain rfl := Option.some.inj hl
  by_cases hrest : rest = []
  · rw [hrest, List.append_nil, hd] at hq
    obtain rfl := Except.ok.inj hq
    exact List.prefix_refl _
  · obtain ⟨y, hy, hq⟩ := exists_follow_append hrest hq
    rw [hd] at hy
    rw [Except.ok.inj hy]
    exact prefix_of_follow hback hq

end Tree
end BindGen

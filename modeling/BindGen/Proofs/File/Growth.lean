import BindGen.Proofs.File.Twins

/-!
# Trees that grow

Writing files and making directories takes nothing away: what is a directory stays one, what is a
file stays one, and a path that leads to a place goes on leading there. A file keeps its content
unless something is written to its own place.
-/

namespace BindGen.Tree

/-- One tree has grown into another, and only the files at some places have changed. -/
structure Spares (changed : List String → Prop) (t t' : Tree) : Prop where
  home : t'.home = t.home
  directory : ∀ q, t.node? q = some .directory → t'.node? q = some .directory
  file : ∀ q content, t.node? q = some (.file content) →
    ∃ content', t'.node? q = some (.file content') ∧ (¬changed q → content' = content)

variable {changed changed' : List String → Prop} {t t' t'' : Tree} {p : Path}

private theorem follow_ok_of_directories
    (hd : ∀ q, t.node? q = some .directory → t'.node? q = some .directory) {start : List String}
    {components : List String} {q : List String} (hq : t.follow start components = .ok q) :
    t'.follow start components = .ok q := by
  induction components generalizing start with
  | nil => exact hq
  | cons c rest ih =>
    cases rest with
    | nil => exact hq
    | cons d rest =>
      rw [follow_cons] at hq ⊢
      split
      · next hlong =>
        rw [if_pos hlong] at hq
        cases hq
      · next hlong =>
        rw [if_neg hlong] at hq
        split at hq
        · next hdir =>
          rw [hd _ hdir]
          exact ih hq
        · cases hq
        · cases hq

/-- A path that leads to a place does so in each tree that has all directories of the first. -/
theorem locate_ok_of_directories (hh : t'.home = t.home)
    (hd : ∀ q, t.node? q = some .directory → t'.node? q = some .directory) {q : List String}
    (hq : t.locate p = .ok q) : t'.locate p = .ok q := by
  rw [locate, componentsBelow?] at hq ⊢
  rw [hh]
  split
  · next hu =>
    rw [if_pos hu] at hq
    cases hq
  · next hu =>
    rw [if_neg hu] at hq
    split
    · next hlong =>
      rw [if_pos hlong] at hq
      cases hq
    · next hlong =>
      rw [if_neg hlong] at hq
      split
      · next hc =>
        rw [hc] at hq
        exact follow_ok_of_directories hd hq
      · next hc =>
        rw [hc] at hq
        cases hq

namespace Spares

/-- A tree spares everything against itself. -/
theorem refl (changed : List String → Prop) (t : Tree) : Spares changed t t :=
  ⟨rfl, fun _ h => h, fun _ content h => ⟨content, h, fun _ => rfl⟩⟩

/-- What spares more places spares fewer. -/
theorem mono (h : Spares changed t t') (hc : ∀ q, changed q → changed' q) :
    Spares changed' t t' where
  home := h.home
  directory := h.directory
  file q content hq := by
    obtain ⟨content', hq', hsame⟩ := h.file q content hq
    exact ⟨content', hq', fun hn => hsame fun hp => hn (hc q hp)⟩

/-- Changes that each spare a place spare it together. -/
theorem trans (h : Spares changed t t') (h' : Spares changed t' t'') : Spares changed t t'' where
  home := h'.home.trans h.home
  directory q hq := h'.directory q (h.directory q hq)
  file q content hq := by
    obtain ⟨middle, hm, hsame⟩ := h.file q content hq
    obtain ⟨last, hl, hsame'⟩ := h'.file q middle hm
    exact ⟨last, hl, fun hn => (hsame' hn).trans (hsame hn)⟩

/-- The content of a file that is spared. -/
theorem node?_eq (h : Spares changed t t') {q : List String} {content : Bytes}
    (hq : t.node? q = some (.file content)) (hn : ¬changed q) :
    t'.node? q = some (.file content) := by
  obtain ⟨content', hq', hsame⟩ := h.file q content hq
  rw [hq', hsame hn]

/-- A path goes on leading to its place. -/
theorem locate_ok (h : Spares changed t t') {q : List String} (hq : t.locate p = .ok q) :
    t'.locate p = .ok q :=
  locate_ok_of_directories h.home h.directory hq

end Spares

/-- One tree has grown into another, and files are new or changed at some places only. -/
structure Grows (changed : List String → Prop) (t t' : Tree) : Prop extends Spares changed t t' where
  fresh : ∀ q content, t'.node? q = some (.file content) → ¬changed q →
    t.node? q = some (.file content)

namespace Grows

/-- A tree has grown against itself. -/
theorem refl (changed : List String → Prop) (t : Tree) : Grows changed t t :=
  ⟨.refl changed t, fun _ _ h _ => h⟩

/-- What changes fewer places changes only some of more. -/
theorem mono (h : Grows changed t t') (hc : ∀ q, changed q → changed' q) :
    Grows changed' t t' where
  toSpares := h.toSpares.mono hc
  fresh q content hq hn := h.fresh q content hq fun hp => hn (hc q hp)

/-- Growth after growth is growth. -/
theorem trans (h : Grows changed t t') (h' : Grows changed t' t'') : Grows changed t t'' where
  toSpares := h.toSpares.trans h'.toSpares
  fresh q content hq hn := h.fresh q content (h'.fresh q content hq hn) hn

end Grows

private theorem put_home (t : Tree) (q : List String) (n : Node) : (t.put q n).home = t.home := by
  rw [put]
  split <;> rfl

private theorem grows_put_file {q : List String} (hq : t.node? q ≠ some .directory)
    (content : Bytes) :
    Grows (· = q) t (t.put q (.file content)) ∧
      (t.put q (.file content)).node? q = some (.file content) := by
  have hroot : q ≠ [] := by
    rintro rfl
    exact hq rfl
  refine ⟨⟨⟨put_home t q _, fun x hx => ?_, fun x old hx => ?_⟩, fun x new hx hne => ?_⟩, ?_⟩
  · rw [node?_put]
    split
    · rfl
    · split
      · next hxq => exact absurd (hxq ▸ hx) hq
      · exact hx
  · rw [node?_put]
    split
    · next hnil =>
      rw [hnil] at hx
      cases hx
    · split
      · next hxq => exact ⟨content, rfl, fun hn => absurd hxq hn⟩
      · exact ⟨old, hx, fun _ => rfl⟩
  · rw [node?_put, if_neg hne] at hx
    split at hx
    · cases hx
    · exact hx
  · rw [node?_put, if_neg hroot, if_pos rfl]

/-- Writing a file changes what its path leads to. -/
theorem grows_write {content : Bytes} (h : t.write p content = .ok t') :
    ∃ q, t.locate p = .ok q ∧ Grows (· = q) t t' ∧ t'.node? q = some (.file content) := by
  rw [write] at h
  split at h
  · cases h
  · next q hq =>
    split at h
    · cases h
    · next hd =>
      obtain rfl := Except.ok.inj h
      exact ⟨q, hq, grows_put_file hd content⟩

/-- Writing a file spares every place but its own, where the content then is. -/
theorem spares_write {content : Bytes} (h : t.write p content = .ok t') :
    ∃ q, t.locate p = .ok q ∧ Spares (· = q) t t' ∧ t'.node? q = some (.file content) := by
  obtain ⟨q, hq, hg, hcontent⟩ := grows_write h
  exact ⟨q, hq, hg.toSpares, hcontent⟩

/-- Adding to a file changes what its path leads to. -/
theorem grows_append {content : Bytes} (h : t.append p content = .ok t') :
    ∃ q, t.locate p = .ok q ∧ Grows (· = q) t t' := by
  rw [append] at h
  split at h
  · obtain ⟨q, hq, hg, -⟩ := grows_write h
    exact ⟨q, hq, hg⟩
  · obtain ⟨q, hq, hg, -⟩ := grows_write h
    exact ⟨q, hq, hg⟩
  · cases h

/-- Appending to a file spares every place but its own. -/
theorem spares_append {content : Bytes} (h : t.append p content = .ok t') :
    ∃ q, t.locate p = .ok q ∧ Spares (· = q) t t' := by
  obtain ⟨q, hq, hg⟩ := grows_append h
  exact ⟨q, hq, hg.toSpares⟩

private theorem grows_put_directory {q : List String} (hq : t.node? q = none) :
    Grows (fun _ => False) t (t.put q .directory) := by
  refine ⟨⟨put_home t q _, fun x hx => ?_, fun x old hx => ?_⟩, fun x new hx _ => ?_⟩
  · rw [node?_put]
    split
    · rfl
    · split
      · rfl
      · exact hx
  · have hnil : x ≠ [] := by
      rintro rfl
      cases hx
    have hne : x ≠ q := by
      rintro rfl
      rw [hq] at hx
      cases hx
    rw [node?_put, if_neg hnil, if_neg hne]
    exact ⟨old, hx, fun _ => rfl⟩
  · rw [node?_put] at hx
    split at hx
    · cases hx
    · split at hx
      · cases hx
      · exact hx

private theorem grows_ensureDirectory (h : t.ensureDirectory p = .ok t') :
    Grows (fun _ => False) t t' := by
  rw [ensureDirectory] at h
  split at h
  · next made hm =>
    obtain rfl := Except.ok.inj h
    rw [makeDirectory] at hm
    split at hm
    · cases hm
    · split at hm
      · cases hm
      · next hn =>
        obtain rfl := Except.ok.inj hm
        exact grows_put_directory hn
  · split at h
    · cases h
    · split at h
      · obtain rfl := Except.ok.inj h
        exact .refl _ t
      · cases h

private theorem grows_makeDirectoriesFrom (root : String) (components : List String) :
    Grows (fun _ => False) t (t.makeDirectoriesFrom root components).1 := by
  induction components with
  | nil =>
    rw [makeDirectoriesFrom]
    split
    · next he => exact grows_ensureDirectory he
    · exact .refl _ t
  | cons c rest ih =>
    rw [makeDirectoriesFrom]
    split
    · next he => exact grows_ensureDirectory he
    · split
      · split
        · next made hm =>
          rw [hm] at ih
          split
          · next he => exact ih.trans (grows_ensureDirectory he)
          · exact ih
        · exact ih
      · exact .refl _ t

/-- Making directories changes no file. -/
theorem grows_makeDirectories (t : Tree) (p : Path) :
    Grows (fun _ => False) t (t.makeDirectories p).1 :=
  grows_makeDirectoriesFrom p.root p.parts.reverse

/-- Making directories changes no place that was there. -/
theorem spares_makeDirectories (t : Tree) (p : Path) :
    Spares (fun _ => False) t (t.makeDirectories p).1 :=
  (t.grows_makeDirectories p).toSpares

private theorem getLast?_of_follow {start components q : List String} {c : String}
    (h : t.follow start components = .ok q) (hc : components.getLast? = some c) (hne : c ≠ "..") :
    q.getLast? = some c := by
  induction components generalizing start with
  | nil => cases hc
  | cons d rest ih =>
    cases rest with
    | nil =>
      obtain rfl : d = c := by simpa using hc
      rw [follow.eq_def] at h
      simp only [if_neg hne] at h
      split at h
      · cases h
      · obtain rfl := Except.ok.inj h
        exact List.getLast?_concat
    | cons e rest =>
      rw [follow_cons] at h
      split at h
      · cases h
      · split at h
        · exact ih h (by simpa using hc)
        · cases h
        · cases h

/-- A path that ends in a name leads to a place of that name, unless it leads to the working
directory itself. -/
theorem getLast?_of_locate {q : List String} {c : String} (h : t.locate p = .ok q)
    (hc : p.parts.getLast? = some c) (hne : c ≠ "..") (hq : q ≠ []) : q.getLast? = some c := by
  rw [locate] at h
  split at h
  · cases h
  · split at h
    · cases h
    · split at h
      · next components hcomponents =>
        refine getLast?_of_follow h ?_ hne
        rw [componentsBelow?] at hcomponents
        split at hcomponents
        · obtain rfl := Option.some.inj hcomponents
          exact hc
        · split at hcomponents
          · obtain rfl := Option.some.inj hcomponents
            rw [List.getLast?_drop, if_neg]
            · exact hc
            · intro hlen
              rw [List.drop_eq_nil_of_le hlen] at h
              exact hq (Except.ok.inj h).symm
          · cases hcomponents
      · cases h

end BindGen.Tree

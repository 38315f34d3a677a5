import BindGen.File.Tree

/-!
# Trees that differ in one file

Two trees are twins if one place holds a file with other bytes and everything else is the same.
Paths lead to the same places in both, so whatever is asked about a path that does not lead to the
file has one answer. Writing to such paths keeps trees twins, and does not change which paths lead
to the file.
-/

namespace BindGen.Tree

/-- Trees with the home and the directories of an origin that are the same but for the file at a
place. -/
structure Twins (origin : Tree) (place : List String) (left right : Bytes) (t t' : Tree) :
    Prop where
  home : t.home = origin.home
  home' : t'.home = origin.home
  directory : ∀ q, t.node? q = some .directory ↔ origin.node? q = some .directory
  others : ∀ q, q ≠ place → t.node? q = t'.node? q
  left : t.node? place = some (.file left)
  right : t'.node? place = some (.file right)

variable {origin t t' : Tree} {place : List String} {left right : Bytes} {p : Path}

/-- Where a component leads, seen from a place. -/
def next (start : List String) (c : String) : List String :=
  if c = ".." then start.dropLast else start ++ [c]

/-- Following a path of two parts or more enters the directory that its first part names. -/
theorem follow_cons (t : Tree) (start : List String) (c d : String) (rest : List String) :
    t.follow start (c :: d :: rest) =
      if Path.longestName < c.utf8ByteSize then .error .nameTooLong
      else
        match t.node? (next start c) with
        | some .directory => t.follow (next start c) (d :: rest)
        | some (.file _) => .error .notDirectory
        | none => .error .notFound := by
  rw [follow.eq_def]
  rfl

-- Where components lead is told by the directories.
private theorem follow_ok_iff (hd : ∀ q, t.node? q = some .directory ↔ t'.node? q = some .directory)
    (start : List String) (components : List String) (q : List String) :
    t.follow start components = .ok q ↔ t'.follow start components = .ok q := by
  induction components generalizing start with
  | nil => rfl
  | cons c rest ih =>
    cases rest with
    | nil => rfl
    | cons d rest =>
      rw [follow_cons, follow_cons]
      split
      · rfl
      · have hdir := hd (next start c)
        by_cases h : t.node? (next start c) = some .directory
        · rw [h, hdir.mp h]
          exact ih _
        · have h' : ¬t'.node? (next start c) = some .directory := fun h' => h (hdir.mpr h')
          constructor
          · intro hq
            split at hq
            · next hn => exact absurd hn h
            · cases hq
            · cases hq
          · intro hq
            split at hq
            · next hn => exact absurd hn h'
            · cases hq
            · cases hq

private theorem locate_ok_iff (hh : t.home = t'.home)
    (hd : ∀ q, t.node? q = some .directory ↔ t'.node? q = some .directory) (p : Path)
    (q : List String) : t.locate p = .ok q ↔ t'.locate p = .ok q := by
  rw [locate, locate, componentsBelow?, componentsBelow?, hh]
  split
  · rfl
  · split
    · rfl
    · split
      · exact follow_ok_iff hd _ _ q
      · rfl

namespace Twins

variable (h : Twins origin place left right t t')
include h

/-- The paths that lead to the file are those that lead to it from the start. -/
theorem locate_ok_iff (p : Path) (q : List String) :
    t.locate p = .ok q ↔ origin.locate p = .ok q :=
  Tree.locate_ok_iff h.home h.directory p q

private theorem follow_eq (start : List String) (components : List String) :
    t.follow start components = t'.follow start components := by
  induction components generalizing start with
  | nil => rfl
  | cons c rest ih =>
    cases rest with
    | nil => rfl
    | cons d rest =>
      rw [follow_cons, follow_cons]
      split
      · rfl
      · by_cases hn : next start c = place
        · rw [hn, h.left, h.right]
        · rw [h.others _ hn, ih]

/-- A path leads to the same place in both trees. -/
theorem locate_eq (p : Path) : t.locate p = t'.locate p := by
  rw [locate, locate, componentsBelow?, componentsBelow?, h.home, h.home']
  split
  · rfl
  · split
    · rfl
    · split
      · exact h.follow_eq _ _
      · rfl

private theorem node?_eq (hp : origin.locate p ≠ .ok place) {q : List String}
    (hq : t.locate p = .ok q) : t.node? q = t'.node? q := by
  apply h.others
  rintro rfl
  exact hp ((h.locate_ok_iff p q).mp hq)

/-- A path that does not lead to the file leads to the same in both trees. -/
theorem find_eq (hp : origin.locate p ≠ .ok place) : t.find p = t'.find p := by
  rw [find, find, ← h.locate_eq]
  split
  · next q hq => rw [h.node?_eq hp hq]
  · rfl

/-- Away from the changed place, twins have the same files. -/
theorem isFile_eq (hp : origin.locate p ≠ .ok place) : t.isFile p = t'.isFile p := by
  rw [isFile, isFile, h.find_eq hp]

/-- Away from the changed place, twins have the same places. -/
theorem has_eq (hp : origin.locate p ≠ .ok place) : t.has p = t'.has p := by
  rw [has, has, h.find_eq hp]

/-- Away from the changed place, twins hold the same content. -/
theorem read_eq (hp : origin.locate p ≠ .ok place) : t.read p = t'.read p := by
  rw [read, read, ← h.locate_eq]
  split
  · rfl
  · next q hq => rw [h.node?_eq hp hq]

/-- Twins resolve a path to the same place. -/
theorem resolve_eq (p : Path) : t.resolve p = t'.resolve p := by
  rw [resolve, resolve, h.home, h.home']

end Twins

private theorem lookup_replace (entries : List (List String × Node)) (q x : List String)
    (n : Node) :
    (entries.map fun (p, old) => if p = q then (p, n) else (p, old)).lookup x =
      (entries.lookup x).map fun old => if x = q then n else old := by
  induction entries with
  | nil => rfl
  | cons e rest ih =>
    obtain ⟨k, old⟩ := e
    have hhead : (if k = q then (k, n) else (k, old)) = (k, if k = q then n else old) := by
      split <;> rfl
    rw [List.map_cons]
    dsimp only
    rw [hhead, List.lookup_cons, List.lookup_cons]
    by_cases hx : x = k
    · rw [hx, beq_self_eq_true]
      rfl
    · rw [beq_eq_false_iff_ne.mpr hx]
      exact ih

/-- What stands at a place after something has been put at one. -/
theorem node?_put (t : Tree) (q : List String) (n : Node) (x : List String) :
    (t.put q n).node? x =
      if x = [] then some .directory else if x = q then some n else t.node? x := by
  rw [node?, node?]
  split
  · rfl
  · rw [put]
    split
    · next hs =>
      rw [lookup_replace]
      split
      · next hx =>
        obtain ⟨old, ho⟩ := Option.isSome_iff_exists.mp hs
        rw [hx, ho]
        rfl
      · simp
    · next hs =>
      rw [Option.not_isSome_iff_eq_none] at hs
      rw [List.lookup_append]
      split
      · next hx =>
        rw [hx, hs]
        simp
      · next hx =>
        simp [List.lookup_cons, beq_eq_false_iff_ne.mpr hx]

namespace Twins

/-- Trees stay twins when a file is written elsewhere in both. -/
theorem put (h : Twins origin place left right t t') {q : List String} (hq : q ≠ place)
    (hd : t.node? q ≠ some .directory) (content : Bytes) :
    Twins origin place left right (t.put q (.file content)) (t'.put q (.file content)) := by
  have hroot : t.node? [] = some .directory := rfl
  have hplace : place ≠ [] := by
    rintro rfl
    have := h.left
    rw [hroot] at this
    cases this
  refine ⟨?_, ?_, fun x => ?_, fun x hx => ?_, ?_, ?_⟩
  · rw [Tree.put]
    split <;> exact h.home
  · rw [Tree.put]
    split <;> exact h.home'
  · rw [node?_put]
    split
    · next hx =>
      rw [hx, ← h.directory, hroot]
    · split
      · next hx =>
        rw [hx, ← h.directory]
        simp [hd]
      · exact h.directory x
  · rw [node?_put, node?_put, h.others x hx]
  · rw [node?_put, if_neg hplace, if_neg (Ne.symm hq)]
    exact h.left
  · rw [node?_put, if_neg hplace, if_neg (Ne.symm hq)]
    exact h.right

/-- Writing to a path that does not lead to the file fails in both trees or keeps them twins. -/
theorem write (h : Twins origin place left right t t') (hp : origin.locate p ≠ .ok place)
    (content : Bytes) :
    (∃ e, t.write p content = .error e ∧ t'.write p content = .error e) ∨
      ∃ u u', t.write p content = .ok u ∧ t'.write p content = .ok u' ∧
        Twins origin place left right u u' := by
  rw [Tree.write, Tree.write, ← h.locate_eq]
  cases hl : t.locate p with
  | error reason => exact Or.inl ⟨_, rfl, rfl⟩
  | ok q =>
    have hq : q ≠ place := by
      rintro rfl
      exact hp ((h.locate_ok_iff p q).mp hl)
    dsimp only
    rw [← h.others q hq]
    by_cases hd : t.node? q = some .directory
    · rw [hd]
      exact Or.inl ⟨_, rfl, rfl⟩
    · refine Or.inr ⟨t.put q (.file content), t'.put q (.file content), ?_, ?_, h.put hq hd content⟩
      · split
        · next hn => exact absurd hn hd
        · rfl
      · split
        · next hn => exact absurd hn hd
        · rfl

/-- Adding to a file other than the one fails in both trees or keeps them twins. -/
theorem append (h : Twins origin place left right t t') (hp : origin.locate p ≠ .ok place)
    (content : Bytes) :
    (∃ e, t.append p content = .error e ∧ t'.append p content = .error e) ∨
      ∃ u u', t.append p content = .ok u ∧ t'.append p content = .ok u' ∧
        Twins origin place left right u u' := by
  rw [Tree.append, Tree.append, ← h.read_eq hp]
  split
  · exact h.write hp _
  · exact h.write hp _
  · exact Or.inl ⟨_, rfl, rfl⟩

end Twins
end BindGen.Tree

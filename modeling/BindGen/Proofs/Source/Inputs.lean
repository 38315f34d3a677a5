import BindGen.Proofs.File.Twins
import BindGen.Proofs.Run.Fold
import BindGen.Settings.Load
import BindGen.Udl.File

/-!
# Settings and definitions in twin trees

The settings of a crate and its interface definition file are read alike from trees that differ in
one file, as long as no file that is read for them is that one.
-/

namespace BindGen

private theorem mem_of_findM? {files : Tree} {ps : List Path} {p : Path}
    (hf : ps.findM? files.isFile = .ok (some p)) : p ∈ ps := by
  induction ps with
  | nil => cases hf
  | cons q ps ih =>
    rw [List.findM?] at hf
    obtain ⟨b, -, hf⟩ := exists_of_bind_eq_ok hf
    cases b with
    | true =>
      cases hf
      exact List.mem_cons_self
    | false => exact List.mem_cons_of_mem q (ih hf)

private theorem mem_of_filesNamed {items : List Item} {d : UdlFileDecl}
    (hd : d ∈ Udl.filesNamed items) : .udlFile d ∈ items := by
  obtain ⟨item, hi, hs⟩ := List.mem_filterMap.mp hd
  cases item <;> cases hs
  exact hi

namespace Tree.Twins

variable {origin t t' : Tree} {place : List String} {left right : Bytes}
  (h : Twins origin place left right t t')
include h

private theorem readSettings_eq {file : Path} (hf : origin.locate file ≠ .ok place) :
    Settings.readFile t file = Settings.readFile t' file := by
  rw [Settings.readFile, Settings.readFile, h.read_eq hf]

private theorem rootOf_eq (crate : Path) : Settings.rootOf t crate = Settings.rootOf t' crate := by
  simp only [Settings.rootOf, h.resolve_eq]

private theorem findM?_eq {ps : List Path} (hp : ∀ p ∈ ps, origin.locate p ≠ .ok place) :
    ps.findM? t.isFile = ps.findM? t'.isFile := by
  induction ps with
  | nil => rfl
  | cons p ps ih =>
    rw [List.findM?, List.findM?, h.isFile_eq (hp p List.mem_cons_self),
      ih fun q hq => hp q (List.mem_cons_of_mem p hq)]

/-- Settings that are not kept in the library are loaded alike. -/
theorem loadSettings_eq {crate : Path} {override : Option Path}
    (hc : ∀ root, Settings.rootOf origin crate = .ok root → ∀ name ∈ Settings.fileNames,
      origin.locate (root.below name) ≠ .ok place)
    (ho : ∀ file, override = some file → origin.locate file ≠ .ok place) :
    Settings.load t crate override = Settings.load t' crate override := by
  have hroot : Settings.rootOf origin crate = Settings.rootOf t crate := by
    simp only [Settings.rootOf, Tree.resolve, h.home]
  rw [Settings.load, Settings.load, ← h.rootOf_eq]
  refine bind_congr_ok fun root hr => ?_
  have hnames : ∀ p ∈ Settings.fileNames.map root.below, origin.locate p ≠ .ok place := by
    intro p hp
    obtain ⟨name, hn, rfl⟩ := List.mem_map.mp hp
    exact hc root (hroot.trans hr) name hn
  have hfile : Settings.file? t root = Settings.file? t' root := h.findM?_eq hnames
  rw [← hfile]
  refine bind_congr_ok fun found hfound => ?_
  have hown : ∀ file, found = some file → Settings.readFile t file = Settings.readFile t' file := by
    rintro file rfl
    cases hf : Settings.file? t root with
    | error e =>
      rw [hf] at hfound
      cases hfound
    | ok x =>
      rw [hf] at hfound
      cases hfound
      exact h.readSettings_eq (hnames file (mem_of_findM? hf))
  cases override with
  | none =>
    cases found with
    | none => rfl
    | some file =>
      dsimp only
      rw [hown file rfl]
  | some laid =>
    have hhas := h.has_eq (ho laid rfl)
    have hread := h.readSettings_eq (ho laid rfl)
    have hhome : ∀ f, Settings.withoutHome laid = .ok f → f = laid := by
      intro f hf
      rw [Settings.withoutHome] at hf
      repeat' split at hf
      all_goals cases hf
      rfl
    cases hw : Settings.withoutHome laid with
    | error e =>
      cases found with
      | none => simp only [bind, Except.bind, hw]
      | some file => simp only [bind, Except.bind, hw, hown file rfl]
    | ok f =>
      obtain rfl := hhome f hw
      cases found with
      | none => simp only [bind, Except.bind, hw, hhas, hread]
      | some file => simp only [bind, Except.bind, hw, hhas, hread, hown file rfl]

private theorem readDefinition_eq {file : Path} (hf : origin.locate file ≠ .ok place)
    (crate : Value) : Udl.readFile t file crate = Udl.readFile t' file crate := by
  rw [Udl.readFile, Udl.readFile, h.isFile_eq hf, h.read_eq hf]

/-- A definition file that is not the library is read alike. -/
theorem groupFor_eq {items : List Item} {root : Path} (crate : Value)
    (hd : ∀ d, .udlFile d ∈ items → origin.locate (Udl.fileIn root d) ≠ .ok place) :
    Udl.groupFor t items root crate = Udl.groupFor t' items root crate := by
  rw [Udl.groupFor, Udl.groupFor]
  split
  · rfl
  · next d hf =>
    rw [h.readDefinition_eq (hd d (mem_of_filesNamed (by rw [hf]; exact List.mem_cons_self)))]
  · rfl

end Tree.Twins

end BindGen

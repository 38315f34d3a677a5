import BindGen.Proofs.Metadata.Typed
import BindGen.Proofs.Run.Fold
import BindGen.Udl.File

/-!
# Interface definitions are typed

Whatever an interface definition file declares for a crate whose name is a text holds what it is
declared to hold. Which file a crate has does not depend on the order of its items.
-/

namespace BindGen.Udl

open Text

variable {crate : Value} {line : Nat} {member source : List Char}

private theorem isOptionalText_ofText? (s : Option String) :
    (Value.ofText? s).isOptionalText = true := by
  cases s <;> rfl

private theorem isOptionalText_resultType (type : List Char) :
    (resultType type).isOptionalText = true := by
  rw [resultType]
  split <;> rfl

/-- A function that a member writes is typed. -/
theorem isTyped_readFunction {d : FunctionDecl} (hc : crate.isText = true)
    (h : readFunction crate line member = .ok d) : d.isTyped = true := by
  rw [readFunction] at h
  cases hf : callable? member with
  | none =>
    rw [hf] at h
    cases h
  | some found =>
    rw [hf] at h
    obtain ⟨inputs, -, h⟩ := exists_of_bind_eq_ok h
    obtain rfl := Except.ok.inj h
    simp [FunctionDecl.isTyped, hc, isOptionalText_ofText?, isOptionalText_resultType]

/-- A member of an interface is typed. -/
theorem isTyped_readObjectMember {object : String} {item : Item} (hc : crate.isText = true)
    (h : readObjectMember crate object line member = .ok item) : item.isTyped = true := by
  rw [readObjectMember] at h
  split at h
  · obtain ⟨inputs, -, h⟩ := exists_of_bind_eq_ok h
    obtain rfl := Except.ok.inj h
    simp [Item.isTyped, ConstructorDecl.isTyped, hc, isOptionalText_ofText?]
  · obtain ⟨f, hf, h⟩ := exists_of_bind_eq_ok h
    obtain rfl := Except.ok.inj h
    have := isTyped_readFunction hc hf
    simp only [FunctionDecl.isTyped, Bool.and_eq_true] at this
    simp [Item.isTyped, MethodDecl.isTyped, hc, this]

/-- The items of a definition with a body are typed. -/
theorem isTyped_readBlock {b : Block} {items : List Item} (hc : crate.isText = true)
    (h : readBlock source crate b = .ok items) : ∀ a ∈ items, a.isTyped = true := by
  rw [readBlock] at h
  dsimp only at h
  split at h
  case h_1 =>
    obtain ⟨found, -, h⟩ := exists_of_bind_eq_ok h
    refine forall_mem_of_mapM (fun m _ a hm => ?_) h
    obtain ⟨d, hd, hm⟩ := exists_of_bind_eq_ok hm
    obtain rfl := Except.ok.inj hm
    exact isTyped_readFunction hc hd
  case h_2 =>
    obtain ⟨found, -, h⟩ := exists_of_bind_eq_ok h
    obtain ⟨fields, -, h⟩ := exists_of_bind_eq_ok h
    obtain rfl := Except.ok.inj h
    simp [Item.isTyped, RecordDecl.isTyped, hc]
  case h_3 =>
    obtain ⟨variants, -, h⟩ := exists_of_bind_eq_ok h
    obtain rfl := Except.ok.inj h
    simp [Item.isTyped, EnumDecl.isTyped, hc]
  case h_4 =>
    obtain ⟨found, -, h⟩ := exists_of_bind_eq_ok h
    obtain ⟨members, hm, h⟩ := exists_of_bind_eq_ok h
    obtain rfl := Except.ok.inj h
    intro a ha
    rcases List.mem_cons.mp ha with rfl | ha
    · simp [Item.isTyped, ObjectDecl.isTyped, hc]
    · exact forall_mem_of_mapM (fun m _ a hm => isTyped_readObjectMember hc hm) hm a ha
  case h_5 =>
    obtain ⟨found, -, h⟩ := exists_of_bind_eq_ok h
    obtain ⟨methods, hm, h⟩ := exists_of_bind_eq_ok h
    obtain rfl := Except.ok.inj h
    have hall := forall_mem_of_mapM (fun m _ d hm => isTyped_readFunction hc hm) hm
    simp [Item.isTyped, CallbackInterfaceDecl.isTyped, hc, List.all_eq_true.mpr hall]

/-- Reading on from a place adds typed items. -/
theorem isTyped_readFrom {progress last : Progress} {s : List Char} (hc : crate.isText = true)
    (hp : ∀ items ∈ progress.items, ∀ a ∈ items, a.isTyped = true)
    (h : readFrom source crate progress s = .ok last) :
    ∀ items ∈ last.items, ∀ a ∈ items, a.isTyped = true := by
  fun_induction readFrom source crate progress s with
  | case1 progress s hblank =>
    obtain rfl := Except.ok.inj h
    exact hp
  | case2 progress s hblank b rest hb ih =>
    obtain ⟨declared, -, h⟩ := exists_of_bind_eq_ok h
    obtain ⟨items, hi, h⟩ := exists_of_bind_eq_ok h
    refine ih declared items ?_ h
    intro is his
    rcases List.mem_cons.mp his with rfl | his
    · exact isTyped_readBlock hc hi
    · exact hp is his
  | case3 progress s hblank hblock a rest ha item ih =>
    refine ih ?_ h
    intro is his
    rcases List.mem_cons.mp his with rfl | his
    · intro b hb
      obtain rfl := List.mem_singleton.mp hb
      simp [item, Item.isTyped, CustomTypeDecl.isTyped, hc]
    · exact hp is his
  | case4 => cases h

/-- The group that an interface definition declares is typed. -/
theorem isTyped_read {text : String} {g : Group} (hc : crate.isText = true)
    (h : read text crate = .ok g) : g.isTyped = true := by
  rw [read] at h
  obtain ⟨progress, hp, h⟩ := exists_of_bind_eq_ok h
  have hall := isTyped_readFrom hc (by simp) hp
  cases hd : progress.declared with
  | none =>
    rw [hd] at h
    cases h
  | some name =>
    rw [hd] at h
    obtain rfl := Except.ok.inj h
    rw [Group.isTyped_iff]
    refine ⟨?_, fun a ha => ?_⟩
    · rw [NamespaceDecl.isTyped, hc]
      rfl
    · obtain ⟨items, hi, ha⟩ := List.mem_flatten.mp ha
      exact hall items (List.mem_reverse.mp hi) a ha

private theorem isTyped_readFile {files : Tree} {file : Path} {g : Group} (hc : crate.isText = true)
    (h : readFile files file crate = .ok g) : g.isTyped = true := by
  rw [readFile] at h
  split at h
  · cases h
  · cases h
  · split at h
    · cases h
    · split at h
      · exact isTyped_read hc (eq_ok_of_mapError h)
      · cases h

/-- The group that the interface definition file of a crate declares is typed. -/
theorem isTyped_groupFor {files : Tree} {items : List Item} {root : Path} {g : Group}
    (hc : crate.isText = true) (h : groupFor files items root crate = .ok (some g)) :
    g.isTyped = true := by
  rw [groupFor] at h
  split at h
  · cases h
  · next d _ =>
    cases hr : readFile files (fileIn root d) crate with
    | error e =>
      rw [hr] at h
      cases h
    | ok g' =>
      rw [hr] at h
      obtain rfl := Option.some.inj (Except.ok.inj h)
      exact isTyped_readFile hc hr
  · cases h

/-- The interface definition file of a crate does not depend on the order of its items. -/
theorem groupFor_perm {items items' : List Item} (hp : items.Perm items') (files : Tree)
    (root : Path)
    (crate : Value) : groupFor files items root crate = groupFor files items' root crate := by
  have hf : (filesNamed items).Perm (filesNamed items') := hp.filterMap _
  rw [groupFor, groupFor]
  match h : filesNamed items, h' : filesNamed items' with
  | [], l => rw [h, h', List.nil_perm] at hf; rw [hf]
  | [d], l => rw [h, h', List.singleton_perm] at hf; rw [hf]
  | a :: b :: l, [] => rw [h, h', List.perm_nil] at hf; cases hf
  | a :: b :: l, [d] => rw [h, h', List.perm_singleton] at hf; cases hf
  | a :: b :: l, c :: d :: k =>
    have hlen := hf.length_eq
    rw [h, h'] at hlen
    simp only [hlen]

end BindGen.Udl

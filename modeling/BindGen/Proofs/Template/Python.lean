import BindGen.Proofs.Template.Writable
import BindGen.Proofs.Text.Case

/-!
# Python modules of typed declarations

The text of a Python module tells the order of the members of each object: up to the first member
that differs two texts are the same, and there the names differ.
-/

namespace BindGen

/-! ## Texts that differ -/

namespace Document

/-- The characters of a document. -/
def chars (d : Document) : List Char := d.text.toList

@[simp] private theorem chars_cons (l : Line) (d : Document) :
    chars (l :: d) = l.render.toList ++ '\n' :: chars d := by
  rw [chars, text, List.map_cons, String.join_cons, String.toList_append, String.toList_append]
  simp [chars, text]

@[simp] private theorem chars_append (d d' : Document) : chars (d ++ d') = chars d ++ chars d' := by
  induction d with
  | nil => rfl
  | cons l d ih => simp [ih]

@[simp] private theorem render_plainLine (s : String) : (plainLine s).render = s := by
  simp [plainLine, Line.render, Piece.render]

@[simp] private theorem render_nil : Line.render [] = "" := rfl

end Document

namespace Template

open Document (chars)

/-- Of two names with one lower-case form, the one that a bracket follows in one place is the other
one. -/
theorem eq_of_bracket {name name' : String} {r r' : List Char}
    (hl : Text.lower name.toList = Text.lower name'.toList)
    (h : name.toList ++ '(' :: r = name'.toList ++ '(' :: r') : name = name' := by
  obtain ⟨u, hu, -⟩ | ⟨u, hu, -⟩ := List.append_eq_append_iff.mp h
  · rw [hu] at hl
    rw [Text.eq_nil_of_lower_append hl.symm, List.append_nil] at hu
    exact (String.toList_injective hu).symm
  · rw [hu] at hl
    rw [Text.eq_nil_of_lower_append hl, List.append_nil] at hu
    exact String.toList_injective hu

private theorem exists_of_forEach_cons {α : Type} {a : α} {as : List α}
    {f : α → Except Fault Document}
    {d : Document} (h : forEach (a :: as) f = .ok d) :
    ∃ first rest, f a = .ok first ∧ forEach as f = .ok rest ∧ d = first ++ rest := by
  obtain ⟨ds, hds, hd⟩ := exists_of_bind_eq_ok h
  rw [List.mapM_cons] at hds
  obtain ⟨first, hfirst, hds⟩ := exists_of_bind_eq_ok hds
  obtain ⟨rest, hrest, hds⟩ := exists_of_bind_eq_ok hds
  obtain rfl := Except.ok.inj hds
  obtain rfl := Except.ok.inj hd
  refine ⟨first, rest.flatten, hfirst, ?_, rfl⟩
  rw [forEach, hrest]
  rfl

/-- Documents of related items, put together, tell what each of them tells if each also tells where
it ends. -/
theorem forall₂_of_forEach {α β : Type} {R Q : α → β → Prop} {as : List α} {bs : List β}
    (h : List.Forall₂ R as bs) {f : α → Except Fault Document} {g : β → Except Fault Document}
    (hstep : ∀ a b d d' r r', R a b → f a = .ok d → g b = .ok d' →
      chars d ++ r = chars d' ++ r' → Q a b ∧ r = r')
    {d d' : Document} (hd : forEach as f = .ok d) (hd' : forEach bs g = .ok d') {r r' : List Char}
    (ht : chars d ++ r = chars d' ++ r') : List.Forall₂ Q as bs ∧ r = r' := by
  induction h generalizing d d' with
  | nil =>
    obtain rfl := Except.ok.inj hd
    obtain rfl := Except.ok.inj hd'
    exact ⟨.nil, ht⟩
  | cons hab _ ih =>
    obtain ⟨first, rest, hfirst, hrest, rfl⟩ := exists_of_forEach_cons hd
    obtain ⟨first', rest', hfirst', hrest', rfl⟩ := exists_of_forEach_cons hd'
    rw [Document.chars_append, Document.chars_append, List.append_assoc, List.append_assoc] at ht
    obtain ⟨hq, ht⟩ := hstep _ _ _ _ _ _ hab hfirst hfirst' ht
    obtain ⟨hqs, hr⟩ := ih hrest hrest' ht
    exact ⟨.cons hq hqs, hr⟩

/-- Documents of related items, put together, tell the items if each of them tells its item. -/
theorem eq_of_forEach {α : Type} {R : α → α → Prop} {as bs : List α} (h : List.Forall₂ R as bs)
    {f : α → Except Fault Document}
    (hstep : ∀ a b d d' r r', R a b → f a = .ok d → f b = .ok d' →
      chars d ++ r = chars d' ++ r' → a = b)
    {d d' : Document} (hd : forEach as f = .ok d) (hd' : forEach bs f = .ok d') {r r' : List Char}
    (ht : chars d ++ r = chars d' ++ r') : as = bs ∧ r = r' := by
  have hends (a b : α) (d d' : Document) (r r' : List Char) (hab : R a b) (hd : f a = .ok d)
      (hd' : f b = .ok d') (ht : chars d ++ r = chars d' ++ r') : a = b ∧ r = r' := by
    obtain rfl := hstep a b d d' r r' hab hd hd' ht
    obtain rfl := Except.ok.inj (hd.symm.trans hd')
    exact ⟨rfl, List.append_cancel_left ht⟩
  obtain ⟨hall, hr⟩ := forall₂_of_forEach h hends hd hd' ht
  exact ⟨List.forall₂_eq_eq_eq ▸ hall, hr⟩

namespace Python

variable {s : Spelling} {o : Outline} {d d' : Document} {r r' : List Char}

open Table.Filed (Tied)

-- The text of a constructor starts with its name.
private theorem exists_chars_constructor {object : ObjectDefinition} {type name : String}
    {c : ConstructorDecl} (hn : c.name = .text name) (hd : constructor s o object type c = .ok d)
    (r : List Char) : ∃ rest,
      chars d ++ r = "\n    @classmethod\n    def ".toList ++ (name.toList ++ '(' :: rest) := by
  obtain ⟨parameters, -, hd⟩ := exists_of_bind_eq_ok hd
  obtain rfl := Except.ok.inj hd
  simp [hn, toString]

-- The text of a method starts with its name, behind the mark of what is asynchronous.
private theorem exists_chars_method {object : ObjectDefinition} {name : String} {m : MethodDecl}
    (hn : m.name = .text name) (hd : method s o object m = .ok d) (r : List Char) : ∃ rest,
      chars d ++ r = "\n    ".toList ++ ((onlyIf m.isAsync "async ").toList ++ ("def ".toList
        ++ (name.toList ++ '(' :: rest))) := by
  obtain ⟨parameters, -, hd⟩ := exists_of_bind_eq_ok hd
  obtain ⟨type, -, hd⟩ := exists_of_bind_eq_ok hd
  obtain rfl := Except.ok.inj hd
  simp [hn, toString]

private theorem eq_of_constructor {object : ObjectDefinition} {type : String}
    (c c' : ConstructorDecl) (d d' : Document) (r r' : List Char) (ht : Tied c c')
    (hd : constructor s o object type c = .ok d) (hd' : constructor s o object type c' = .ok d')
    (h : chars d ++ r = chars d' ++ r') : c = c' := by
  obtain ⟨name, name', hn, hn', hl, hsame⟩ := ht
  obtain ⟨rest, hrest⟩ := exists_chars_constructor hn hd r
  obtain ⟨rest', hrest'⟩ := exists_chars_constructor hn' hd' r'
  rw [hrest, hrest'] at h
  exact hsame (eq_of_bracket hl (List.append_cancel_left h))

private theorem eq_of_method {object : ObjectDefinition} (m m' : MethodDecl) (d d' : Document)
    (r r' : List Char) (ht : Tied m m') (hd : method s o object m = .ok d)
    (hd' : method s o object m' = .ok d') (h : chars d ++ r = chars d' ++ r') : m = m' := by
  obtain ⟨name, name', hn, hn', hl, hsame⟩ := ht
  obtain ⟨rest, hrest⟩ := exists_chars_method hn hd r
  obtain ⟨rest', hrest'⟩ := exists_chars_method hn' hd' r'
  rw [hrest, hrest', List.append_cancel_left_eq, onlyIf, onlyIf] at h
  -- One of the two methods alone cannot be asynchronous: `async` and `def` start differently.
  split at h <;> split at h
  · exact hsame (eq_of_bracket hl (List.append_cancel_left (List.append_cancel_left h)))
  · simp at h
  · simp at h
  · exact hsame (eq_of_bracket hl (List.append_cancel_left (List.append_cancel_left h)))

/-- The text of an object tells in which order its members are listed. -/
theorem shownAlike_of_object {a b : ObjectDefinition} (hs : a.SameSurface b) (h : a.WellFiled)
    (h' : b.WellFiled) (hd : object s o a = .ok d) (hd' : object s o b = .ok d')
    (ht : chars d ++ r = chars d' ++ r') : a.ShownAlike b ∧ r = r' := by
  obtain ⟨decl, cs, ms⟩ := a
  obtain ⟨decl', cs', ms'⟩ := b
  obtain rfl : decl = decl' := hs.declaration
  obtain ⟨name, hd, hd'⟩ := exists_of_same_bind rfl hd hd'
  obtain ⟨lcs, hlcs, hd⟩ := exists_of_bind_eq_ok hd
  obtain ⟨lcs', hlcs', hd'⟩ := exists_of_bind_eq_ok hd'
  obtain ⟨dcs, hdcs, hd⟩ := exists_of_bind_eq_ok hd
  obtain ⟨dcs', hdcs', hd'⟩ := exists_of_bind_eq_ok hd'
  obtain ⟨lms, hlms, hd⟩ := exists_of_bind_eq_ok hd
  obtain ⟨lms', hlms', hd'⟩ := exists_of_bind_eq_ok hd'
  obtain ⟨dms, hdms, hd⟩ := exists_of_bind_eq_ok hd
  obtain ⟨dms', hdms', hd'⟩ := exists_of_bind_eq_ok hd'
  obtain rfl := Except.ok.inj hd
  obtain rfl := Except.ok.inj hd'
  simp only [Document.chars_append, List.append_assoc, List.append_cancel_left_eq] at ht
  obtain ⟨rfl, ht⟩ := eq_of_forEach
    (h.constructors.forall₂_tied h'.constructors hs.constructors hlcs hlcs')
    eq_of_constructor hdcs hdcs' ht
  obtain ⟨rfl, ht⟩ := eq_of_forEach (h.methods.forall₂_tied h'.methods hs.methods hlms hlms')
    eq_of_method hdms hdms' ht
  exact ⟨hs.shownAlike h h' (hlcs.trans hlcs'.symm) (hlms.trans hlms'.symm), ht⟩

/-- The text of a module tells in which order the members of each object are listed. -/
theorem shownAlike_of_render {objects : List ObjectDefinition}
    (ho : List.Forall₂ (fun a b => a.SameSurface b ∧ a.WellFiled ∧ b.WellFiled) o.objects objects)
    (hd : render s o = .ok d) (hd' : render s { o with objects } = .ok d')
    (ht : chars d = chars d') : List.Forall₂ ObjectDefinition.ShownAlike o.objects objects := by
  rw [render] at hd hd'
  obtain ⟨externals, hd, hd'⟩ := exists_of_same_bind rfl hd hd'
  obtain ⟨imports, hd, hd'⟩ := exists_of_same_bind rfl hd hd'
  obtain ⟨loader, hd, hd'⟩ := exists_of_same_bind rfl hd hd'
  obtain ⟨customTypes, hd, hd'⟩ := exists_of_same_bind rfl hd hd'
  obtain ⟨records, hd, hd'⟩ := exists_of_same_bind rfl hd hd'
  obtain ⟨enums, hd, hd'⟩ := exists_of_same_bind rfl hd hd'
  obtain ⟨classes, hclasses, hd⟩ := exists_of_bind_eq_ok hd
  obtain ⟨classes', hclasses', hd'⟩ := exists_of_bind_eq_ok hd'
  obtain ⟨callbackInterfaces, hd, hd'⟩ := exists_of_same_bind rfl hd hd'
  obtain ⟨functions, hd, hd'⟩ := exists_of_same_bind rfl hd hd'
  obtain rfl := Except.ok.inj hd
  obtain rfl := Except.ok.inj hd'
  have hheading : heading "#" { o with objects } = heading "#" o := rfl
  simp only [hheading, Document.chars_append, List.append_assoc, List.append_cancel_left_eq] at ht
  exact (forall₂_of_forEach ho (fun a b d d' r r' hab hd hd' ht =>
    shownAlike_of_object hab.1 hab.2.1 hab.2.2 hd hd' ht) hclasses hclasses' ht).1

end Python

end Template
end BindGen

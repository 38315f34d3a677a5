import BindGen.Proofs.Run.Fold
import BindGen.Template.Render
import Mathlib.Data.List.Forall2

/-!
# What templates show of objects

A template shows an object by its declaration and by its members in the order in which it lists
them. How the members are kept beyond that leaves no trace in any document.
-/

namespace BindGen

/-- Templates show two objects alike: they have one declaration and list the same members. -/
structure ObjectDefinition.ShownAlike (a b : ObjectDefinition) : Prop where
  declaration : a.declaration = b.declaration
  constructors : Outline.constructorsOf a = Outline.constructorsOf b
  methods : Outline.methodsOf a = Outline.methodsOf b
  isEmpty : a.constructors.isEmpty = b.constructors.isEmpty

namespace Template

variable {s : Spelling} {o : Outline} {objects : List ObjectDefinition}

private theorem forEach_eq_of_forall₂ {α β : Type} {R : α → β → Prop} {as : List α} {bs : List β}
    (h : List.Forall₂ R as bs) {f : α → Except Fault Document} {g : β → Except Fault Document}
    (hf : ∀ a b, R a b → f a = g b) : forEach as f = forEach bs g := by
  rw [forEach, forEach, mapM_eq_of_forall₂ h hf]

/-! Each template reads an outline beyond its objects as it is. -/

private theorem Kotlin.library_congr
    (h : List.Forall₂ ObjectDefinition.ShownAlike o.objects objects) :
    Kotlin.library s o = Kotlin.library s { o with objects } := by
  refine bind_congr fun functions => congrArg (· >>= _) (forEach_eq_of_forall₂ h fun a b hab => ?_)
  obtain ⟨d, cs, ms⟩ := a
  obtain ⟨d', cs', ms'⟩ := b
  obtain ⟨rfl : d = d', hconstructors, hmethods, -⟩ := hab
  rw [hconstructors, hmethods]
  rfl

private theorem Kotlin.companion_congr {a b : ObjectDefinition} (h : a.ShownAlike b)
    (name : String) :
    Kotlin.companion s o a name = Kotlin.companion s { o with objects } b name := by
  obtain ⟨d, cs, ms⟩ := a
  obtain ⟨d', cs', ms'⟩ := b
  obtain ⟨rfl : d = d', hconstructors, -, hempty⟩ := h
  rw [companion, companion, hconstructors, hempty]
  rfl

private theorem Kotlin.object_congr {a b : ObjectDefinition} (h : a.ShownAlike b) :
    Kotlin.object s o a = Kotlin.object s { o with objects } b := by
  have hcompanion (name : String) :
      Kotlin.companion s o a name = Kotlin.companion s { o with objects } b name :=
    companion_congr h name
  obtain ⟨d, cs, ms⟩ := a
  obtain ⟨d', cs', ms'⟩ := b
  obtain ⟨rfl : d = d', -, hmethods, -⟩ := h
  simp only [object, hcompanion, hmethods]
  rfl

private theorem Kotlin.render_congr
    (h : List.Forall₂ ObjectDefinition.ShownAlike o.objects objects) :
    Kotlin.render s o = Kotlin.render s { o with objects } := by
  have hobjects : forEach o.objects (object s o) = forEach objects (object s { o with objects }) :=
    forEach_eq_of_forall₂ h fun _ _ => object_congr
  rw [render, render, hobjects, library_congr h]
  rfl

private theorem Swift.object_congr {a b : ObjectDefinition} (h : a.ShownAlike b) :
    Swift.object s o a = Swift.object s { o with objects } b := by
  obtain ⟨d, cs, ms⟩ := a
  obtain ⟨d', cs', ms'⟩ := b
  obtain ⟨rfl : d = d', hconstructors, hmethods, -⟩ := h
  rw [object, object, hconstructors, hmethods]
  rfl

private theorem Swift.render_congr
    (h : List.Forall₂ ObjectDefinition.ShownAlike o.objects objects) :
    Swift.render s o = Swift.render s { o with objects } := by
  have hobjects : forEach o.objects (object s o) = forEach objects (object s { o with objects }) :=
    forEach_eq_of_forall₂ h fun _ _ => object_congr
  rw [render, render, hobjects]
  rfl

private theorem CHeader.render_congr {c : CTypes}
    (h : List.Forall₂ ObjectDefinition.ShownAlike o.objects objects) :
    CHeader.render c o = CHeader.render c { o with objects } := by
  refine bind_congr fun functions => congrArg (· >>= _) (mapM_eq_of_forall₂ h fun a b hab => ?_)
  obtain ⟨d, cs, ms⟩ := a
  obtain ⟨d', cs', ms'⟩ := b
  obtain ⟨rfl : d = d', hconstructors, hmethods, -⟩ := hab
  rw [hconstructors, hmethods]
  rfl

private theorem Python.object_congr {a b : ObjectDefinition} (h : a.ShownAlike b) :
    Python.object s o a = Python.object s { o with objects } b := by
  obtain ⟨d, cs, ms⟩ := a
  obtain ⟨d', cs', ms'⟩ := b
  obtain ⟨rfl : d = d', hconstructors, hmethods, -⟩ := h
  rw [object, object, hconstructors, hmethods]
  rfl

private theorem Python.render_congr
    (h : List.Forall₂ ObjectDefinition.ShownAlike o.objects objects) :
    Python.render s o = Python.render s { o with objects } := by
  have hobjects : forEach o.objects (object s o) = forEach objects (object s { o with objects }) :=
    forEach_eq_of_forall₂ h fun _ _ => object_congr
  rw [render, render, hobjects]
  rfl

private theorem Ruby.object_congr {a b : ObjectDefinition} (h : a.ShownAlike b) :
    Ruby.object s o a = Ruby.object s { o with objects } b := by
  obtain ⟨d, cs, ms⟩ := a
  obtain ⟨d', cs', ms'⟩ := b
  obtain ⟨rfl : d = d', hconstructors, hmethods, -⟩ := h
  rw [object, object, hconstructors, hmethods]
  rfl

private theorem Ruby.render_congr (h : List.Forall₂ ObjectDefinition.ShownAlike o.objects objects) :
    Ruby.render s o = Ruby.render s { o with objects } := by
  have hobjects : forEach o.objects (object s o) = forEach objects (object s { o with objects }) :=
    forEach_eq_of_forall₂ h fun _ _ => object_congr
  rw [render, render, hobjects]
  rfl

/-- No template tells objects apart that are shown alike. -/
theorem render_congr (t : Template) (s : Spelling) (c : CHeader.CTypes)
    (h : List.Forall₂ ObjectDefinition.ShownAlike o.objects objects) :
    t.render s c o = t.render s c { o with objects } := by
  cases t with
  | kotlin => rw [render, render, Kotlin.render_congr h]
  | swift => rw [render, render, Swift.render_congr h]
  | cHeader => exact CHeader.render_congr h
  | python => rw [render, render, Python.render_congr h]
  | ruby => rw [render, render, Ruby.render_congr h]

end Template
end BindGen

import BindGen.Proofs.Run.Fold
import BindGen.Proofs.Value.Order
import BindGen.Template.Render

/-!
# Docstrings in compact texts

A docstring is one of the fields that the checksum of an interface is taken of, so it may change the
checksum; but whether there is a checksum does not depend on docstrings. Beside that a template of a
compact text reads every declaration as if it had no docstring: two interfaces that differ in
docstrings lead to documents that differ in the line with the checksum.
-/

namespace BindGen

/-! ## Leaving docstrings out -/

/-- A declaration without its docstring. -/
def Declaration.undocumented {α : Type} [Declaration α] (d : α) : α := withDocstring d .null

open Declaration (undocumented)

/-- A callback interface without docstrings, its own and those of its methods. -/
def CallbackInterfaceDecl.undocumented (c : CallbackInterfaceDecl) : CallbackInterfaceDecl :=
  { Declaration.undocumented c with methods := c.methods.map Declaration.undocumented }

/-- An object without docstrings, its own and those of its members. -/
def ObjectDefinition.undocumented (o : ObjectDefinition) : ObjectDefinition where
  declaration := Declaration.undocumented o.declaration
  constructors := Table.mapValues Declaration.undocumented o.constructors
  methods := Table.mapValues Declaration.undocumented o.methods

/-- An interface without docstrings. -/
def Interface.undocumented (i : Interface) : Interface :=
  { i with
    functions := Table.mapValues Declaration.undocumented i.functions
    objects := Table.mapValues ObjectDefinition.undocumented i.objects
    records := Table.mapValues Declaration.undocumented i.records
    enums := Table.mapValues Declaration.undocumented i.enums
    callbackInterfaces := Table.mapValues CallbackInterfaceDecl.undocumented i.callbackInterfaces }

/-- An outline without docstrings. -/
def Outline.undocumented (o : Outline) : Outline :=
  { o with
    functions := o.functions.map Declaration.undocumented
    objects := o.objects.map ObjectDefinition.undocumented
    records := o.records.map Declaration.undocumented
    enums := o.enums.map Declaration.undocumented
    callbackInterfaces := o.callbackInterfaces.map CallbackInterfaceDecl.undocumented }

/-- An outline with another checksum. -/
def Outline.withChecksum (o : Outline) (checksum : String) : Outline := { o with checksum }

/-- An outline without docstrings and without the checksum. -/
def Outline.skeleton (o : Outline) : Outline := o.undocumented.withChecksum ""

/-! ## Checksums and outlines -/

namespace Interface

variable {α β : Type}

private theorem sorted_mapValues (f : α → β) (t : Table α) :
    sorted (Table.mapValues f t) = (Table.mapValues f) <$> sorted t :=
  sortByKey_map Prod.fst (fun (e : Scalar × α) => (e.1, f e.2)) t

/-! What a step gives may be left unused. Then all that counts of the step is whether it fails. -/

section Unused

variable (k : Except Fault β)

private theorem dump_unused [Declaration α] (t : Table α) :
    (dump t >>= fun _ => k) = sorted t >>= fun _ => k := by
  rw [dump, bind_assoc]
  rfl

private theorem dump_mapValues_unused [Declaration α] (f : α → α) (t : Table α) :
    (dump (Table.mapValues f t) >>= fun _ => k) = dump t >>= fun _ => k := by
  rw [dump_unused, dump_unused, sorted_mapValues, bind_map_left]

private theorem dumpObject_undocumented_unused (o : ObjectDefinition) :
    (dumpObject o.undocumented >>= fun _ => k) = dumpObject o >>= fun _ => k := by
  simp only [dumpObject, ObjectDefinition.undocumented, bind_assoc, pure_bind,
    dump_mapValues_unused]

private theorem mapM_mapValues_unused {γ : Type} {step : Scalar × α → Except Fault γ} {f : α → α}
    (h : ∀ (key : Scalar) (d : α) (k : Except Fault β),
      (step (key, f d) >>= fun _ => k) = step (key, d) >>= fun _ => k) (t : Table α) :
    ((Table.mapValues f t).mapM step >>= fun _ => k) = t.mapM step >>= fun _ => k := by
  rw [Table.mapValues]
  induction t with
  | nil => rfl
  | cons e t ih => simp only [List.map_cons, List.mapM_cons, bind_assoc, pure_bind, ih, h]

/-- Whether an interface has a checksum does not depend on docstrings. -/
theorem checksum_undocumented_unused (i : Interface) :
    (i.undocumented.checksum >>= fun _ => k) = i.checksum >>= fun _ => k := by
  have hobjects (t : Table ObjectDefinition) (k : Except Fault β) :
      ((Table.mapValues ObjectDefinition.undocumented t).mapM fun e => do
        return (e.1, ← dumpObject e.2)) >>= (fun _ => k) =
      (t.mapM fun e => do return (e.1, ← dumpObject e.2)) >>= fun _ => k := by
    refine mapM_mapValues_unused k (fun key o k => ?_) t
    simp only [bind_assoc, pure_bind, dumpObject_undocumented_unused]
  simp only [checksum, canonicalText, content, undocumented, bind_assoc, pure_bind,
    dump_mapValues_unused, sorted_mapValues, bind_map_left, hobjects]

end Unused
end Interface

namespace Outline

variable {α β : Type}

private theorem values_mapValues (f : α → β) (t : Table α) :
    Table.values (Table.mapValues f t) = (Table.values t).map f := by
  rw [Table.values, Table.values, Table.mapValues, List.map_map, List.map_map]
  rfl

private theorem inOrder_mapValues (f : α → β) (t : Table α) :
    inOrder (Table.mapValues f t) = List.map f <$> inOrder t := by
  simp only [inOrder, Interface.sorted_mapValues, map_bind, map_pure, bind_map_left,
    values_mapValues]

private theorem membersInOrder_mapValues {name : α → Value} {f : α → α}
    (hf : ∀ d, name (f d) = name d)
    (t : Table α) :
    membersInOrder name (Table.mapValues f t) = List.map f <$> membersInOrder name t := by
  have hkey : (fun d => foldCase ((name d).scalar?.getD .null)) ∘ f =
      fun d => foldCase ((name d).scalar?.getD .null) := by
    funext d
    rw [Function.comp_apply, hf]
  rw [membersInOrder, membersInOrder, values_mapValues, sortByKey_map, hkey]
  rfl

/-- The outline of an interface without docstrings is the skeleton of the outline, if its checksum
is left out. -/
theorem skeleton_ofInterface (i : Interface) (settings : Table Value)
    (package : Except Fault String) :
    skeleton <$> ofInterface i settings package =
      (·.withChecksum "") <$> ofInterface i.undocumented settings package := by
  have hmodule : moduleNameOf i.undocumented settings = moduleNameOf i settings := rfl
  have hfunctions := inOrder_mapValues Declaration.undocumented i.functions
  have hrecords := inOrder_mapValues Declaration.undocumented i.records
  have henums := inOrder_mapValues Declaration.undocumented i.enums
  have hobjects := inOrder_mapValues ObjectDefinition.undocumented i.objects
  have hcallbacks := inOrder_mapValues CallbackInterfaceDecl.undocumented i.callbackInterfaces
  simp only [ofInterface, map_bind, map_pure, hmodule, Interface.checksum_undocumented_unused,
    skeleton, undocumented, withChecksum]
  simp only [Interface.undocumented, hfunctions, hrecords, henums, hobjects, hcallbacks,
    bind_map_left]

/-- The parts of an outline that its interface and the settings give directly. -/
theorem checksum_compact_of_ofInterface {i : Interface} {settings : Table Value}
    {package : Except Fault String} {o : Outline} (h : ofInterface i settings package = .ok o) :
    i.checksum = .ok o.checksum ∧
      o.compact = ((Table.find? settings "render_style").getD .null).same "compact" := by
  obtain ⟨moduleName, -, h⟩ := exists_of_bind_eq_ok h
  obtain ⟨checksum, hchecksum, h⟩ := exists_of_bind_eq_ok h
  obtain ⟨functions, -, h⟩ := exists_of_bind_eq_ok h
  obtain ⟨records, -, h⟩ := exists_of_bind_eq_ok h
  obtain ⟨enums, -, h⟩ := exists_of_bind_eq_ok h
  obtain ⟨objects, -, h⟩ := exists_of_bind_eq_ok h
  obtain ⟨callbackInterfaces, -, h⟩ := exists_of_bind_eq_ok h
  obtain ⟨customTypes, -, h⟩ := exists_of_bind_eq_ok h
  obtain ⟨packageName, -, h⟩ := exists_of_bind_eq_ok h
  obtain rfl := Except.ok.inj h
  exact ⟨hchecksum, rfl⟩

end Outline

/-! ## Templates -/

namespace Outline

private theorem constructorsOf_undocumented (object : ObjectDefinition) :
    constructorsOf object.undocumented =
      List.map Declaration.undocumented <$> constructorsOf object :=
  membersInOrder_mapValues (f := Declaration.undocumented) (fun _ => rfl) object.constructors

private theorem methodsOf_undocumented (object : ObjectDefinition) :
    methodsOf object.undocumented = List.map Declaration.undocumented <$> methodsOf object :=
  membersInOrder_mapValues (f := Declaration.undocumented) (fun _ => rfl) object.methods

end Outline

namespace Template

variable {s : Spelling} {o : Outline}

private theorem docLines_of_compact (h : o.compact = true) (docstring : Value)
    (lines : String → Document) : docLines o docstring lines = [] := by
  rw [docLines, h, Bool.not_true, Bool.and_false, if_neg Bool.false_ne_true]

private theorem mapError_map {ε ε' α β : Type} (f : α → β) (encode : ε → ε') (x : Except ε α) :
    (f <$> x).mapError encode = f <$> x.mapError encode := by
  cases x <;> rfl

private theorem forEach_map {α β : Type} (f : α → β) (items : List α)
    (render : β → Except Fault Document) :
    forEach (items.map f) render = forEach items fun a => render (f a) := by
  rw [forEach, forEach, List.mapM_map]
  rfl

private theorem forEach_eq {α β : Type} {f : α → β} {render : β → Except Fault Document}
    {render' : α → Except Fault Document} (h : ∀ a, render (f a) = render' a) (items : List α) :
    forEach (items.map f) render = forEach items render' := by
  rw [forEach_map, funext h]

namespace Kotlin

private theorem library_undocumented : library s o.undocumented = library s o := by
  simp only [library, Outline.undocumented, forEach_map, Outline.constructorsOf_undocumented,
    Outline.methodsOf_undocumented, bind_map_left]
  rfl

private theorem record_undocumented (h : o.compact = true) (r : RecordDecl) :
    record s o.undocumented (Declaration.undocumented r) = record s o r := by
  simp only [record, doc, docLines_of_compact h, docLines_of_compact (o := o.undocumented) h]
  rfl

private theorem enum_undocumented (h : o.compact = true) (e : EnumDecl) :
    enum o.undocumented (Declaration.undocumented e) = enum o e := by
  simp only [enum, doc, docLines_of_compact h, docLines_of_compact (o := o.undocumented) h]
  rfl

private theorem object_undocumented (h : o.compact = true) (d : ObjectDefinition) :
    object s o.undocumented d.undocumented = object s o d := by
  have hcompanion (name : String) :
      companion s o.undocumented d.undocumented name = companion s o d name := by
    have hempty : d.undocumented.constructors.isEmpty = d.constructors.isEmpty :=
      List.isEmpty_map
    simp only [companion, hempty, Outline.constructorsOf_undocumented, bind_map_left, forEach_map]
    rfl
  simp only [object, doc, docLines_of_compact h, docLines_of_compact (o := o.undocumented) h,
    hcompanion, Outline.methodsOf_undocumented, bind_map_left, forEach_map]
  rfl

private theorem callbackInterface_undocumented (c : CallbackInterfaceDecl) :
    callbackInterface s c.undocumented = callbackInterface s c := by
  simp only [callbackInterface, CallbackInterfaceDecl.undocumented, forEach_map]
  rfl

private theorem function_undocumented (h : o.compact = true) (f : FunctionDecl) :
    function s o.undocumented (Declaration.undocumented f) = function s o f := by
  simp only [function, doc, docLines_of_compact h, docLines_of_compact (o := o.undocumented) h]
  rfl

private theorem render_undocumented (h : o.compact = true) :
    render s o.undocumented = render s o := by
  have hrecords := forEach_eq (record_undocumented (s := s) h) o.records
  have henums := forEach_eq (enum_undocumented h) o.enums
  have hobjects := forEach_eq (object_undocumented (s := s) h) o.objects
  have hcallbacks := forEach_eq (callbackInterface_undocumented (s := s)) o.callbackInterfaces
  have hfunctions := forEach_eq (function_undocumented (s := s) h) o.functions
  rw [render, render, library_undocumented, ← hrecords, ← henums, ← hobjects, ← hcallbacks,
    ← hfunctions]
  rfl

end Kotlin

namespace Swift

private theorem record_undocumented (h : o.compact = true) (r : RecordDecl) :
    record s o.undocumented (Declaration.undocumented r) = record s o r := by
  simp only [record, doc, docLines_of_compact h, docLines_of_compact (o := o.undocumented) h]
  rfl

private theorem enum_undocumented (h : o.compact = true) (e : EnumDecl) :
    enum s o.undocumented (Declaration.undocumented e) = enum s o e := by
  simp only [enum, doc, docLines_of_compact h, docLines_of_compact (o := o.undocumented) h]
  rfl

private theorem object_undocumented (h : o.compact = true) (d : ObjectDefinition) :
    object s o.undocumented d.undocumented = object s o d := by
  simp only [object, doc, docLines_of_compact h, docLines_of_compact (o := o.undocumented) h,
    Outline.constructorsOf_undocumented, Outline.methodsOf_undocumented, bind_map_left,
    forEach_map]
  rfl

private theorem callbackInterface_undocumented (c : CallbackInterfaceDecl) :
    callbackInterface s c.undocumented = callbackInterface s c := by
  simp only [callbackInterface, CallbackInterfaceDecl.undocumented, forEach_map]
  rfl

private theorem function_undocumented (h : o.compact = true) (f : FunctionDecl) :
    function s o.undocumented (Declaration.undocumented f) = function s o f := by
  simp only [function, doc, docLines_of_compact h, docLines_of_compact (o := o.undocumented) h]
  rfl

private theorem render_undocumented (h : o.compact = true) :
    render s o.undocumented = render s o := by
  have hrecords := forEach_eq (record_undocumented (s := s) h) o.records
  have henums := forEach_eq (enum_undocumented (s := s) h) o.enums
  have hobjects := forEach_eq (object_undocumented (s := s) h) o.objects
  have hcallbacks := forEach_eq (callbackInterface_undocumented (s := s)) o.callbackInterfaces
  have hfunctions := forEach_eq (function_undocumented (s := s) h) o.functions
  rw [render, render, ← hrecords, ← henums, ← hobjects, ← hcallbacks, ← hfunctions]
  rfl

end Swift

namespace CHeader

/-- No header shows a docstring. -/
theorem render_undocumented {c : CTypes} : render c o.undocumented = render c o := by
  simp only [render, Outline.undocumented, List.mapM_map, Outline.constructorsOf_undocumented,
    Outline.methodsOf_undocumented, mapError_map, bind_map_left, Function.comp_def]
  rfl

end CHeader

namespace Python

private theorem record_undocumented (h : o.compact = true) (r : RecordDecl) :
    record s o.undocumented (Declaration.undocumented r) = record s o r := by
  simp only [record, classDoc, docLines_of_compact h, docLines_of_compact (o := o.undocumented) h]
  rfl

private theorem enum_undocumented (h : o.compact = true) (e : EnumDecl) :
    enum o.undocumented (Declaration.undocumented e) = enum o e := by
  simp only [enum, classDoc, docLines_of_compact h, docLines_of_compact (o := o.undocumented) h]
  rfl

private theorem method_undocumented (h : o.compact = true) (d : ObjectDefinition) (m : MethodDecl) :
    method s o.undocumented d.undocumented (Declaration.undocumented m) = method s o d m := by
  simp only [method, functionDoc, docLines_of_compact h,
    docLines_of_compact (o := o.undocumented) h]
  rfl

private theorem object_undocumented (h : o.compact = true) (d : ObjectDefinition) :
    object s o.undocumented d.undocumented = object s o d := by
  simp only [object, classDoc, docLines_of_compact h, docLines_of_compact (o := o.undocumented) h,
    Outline.constructorsOf_undocumented, Outline.methodsOf_undocumented, bind_map_left,
    forEach_map, method_undocumented h]
  rfl

private theorem callbackInterface_undocumented (c : CallbackInterfaceDecl) :
    callbackInterface s c.undocumented = callbackInterface s c := by
  simp only [callbackInterface, CallbackInterfaceDecl.undocumented, forEach_map, List.isEmpty_map]
  rfl

private theorem function_undocumented (h : o.compact = true) (f : FunctionDecl) :
    function s o.undocumented (Declaration.undocumented f) = function s o f := by
  simp only [function, functionDoc, docLines_of_compact h,
    docLines_of_compact (o := o.undocumented) h]
  rfl

private theorem render_undocumented (h : o.compact = true) :
    render s o.undocumented = render s o := by
  have hrecords := forEach_eq (record_undocumented (s := s) h) o.records
  have henums := forEach_eq (enum_undocumented h) o.enums
  have hobjects := forEach_eq (object_undocumented (s := s) h) o.objects
  have hcallbacks := forEach_eq (callbackInterface_undocumented (s := s)) o.callbackInterfaces
  have hfunctions := forEach_eq (function_undocumented (s := s) h) o.functions
  rw [render, render, ← hrecords, ← henums, ← hobjects, ← hcallbacks, ← hfunctions]
  rfl

end Python

namespace Ruby

private theorem record_undocumented (h : o.compact = true) (r : RecordDecl) :
    record s o.undocumented (Declaration.undocumented r) = record s o r := by
  simp only [record, doc, docLines_of_compact h, docLines_of_compact (o := o.undocumented) h]
  rfl

private theorem enum_undocumented (h : o.compact = true) (e : EnumDecl) :
    enum o.undocumented (Declaration.undocumented e) = enum o e := by
  simp only [enum, doc, docLines_of_compact h, docLines_of_compact (o := o.undocumented) h]
  rfl

private theorem object_undocumented (h : o.compact = true) (d : ObjectDefinition) :
    object s o.undocumented d.undocumented = object s o d := by
  simp only [object, doc, docLines_of_compact h, docLines_of_compact (o := o.undocumented) h,
    Outline.constructorsOf_undocumented, Outline.methodsOf_undocumented, bind_map_left,
    forEach_map, List.flatMap_map]
  rfl

private theorem function_undocumented (h : o.compact = true) (f : FunctionDecl) :
    function s o.undocumented (Declaration.undocumented f) = function s o f := by
  simp only [function, doc, docLines_of_compact h, docLines_of_compact (o := o.undocumented) h]
  rfl

private theorem render_undocumented (h : o.compact = true) :
    render s o.undocumented = render s o := by
  have hrecords := forEach_eq (record_undocumented (s := s) h) o.records
  have henums := forEach_eq (enum_undocumented h) o.enums
  have hobjects := forEach_eq (object_undocumented (s := s) h) o.objects
  have hfunctions := forEach_eq (function_undocumented (s := s) h) o.functions
  rw [render, render, ← hrecords, ← henums, ← hobjects, ← hfunctions]
  rfl

end Ruby

/-! ## Whole documents -/

/-- The mark that starts a comment in the language of a template. -/
def mark : Template → String
  | kotlin | swift | cHeader => "//"
  | python | ruby => "#"

/-- A document under the heading of an outline. -/
def headed (mark : String) (o : Outline) (d : Document) : Document := heading mark o ++ d.drop 2

private theorem Kotlin.render_checksum (checksum : String) :
    Kotlin.render s (o.withChecksum checksum) =
      headed "//" (o.withChecksum checksum) <$> Kotlin.render s o := by
  simp only [render, map_bind, map_pure]
  rfl

private theorem Swift.render_checksum (checksum : String) :
    Swift.render s (o.withChecksum checksum) =
      headed "//" (o.withChecksum checksum) <$> Swift.render s o := by
  simp only [render, map_bind, map_pure]
  rfl

private theorem CHeader.render_checksum {c : CTypes} (checksum : String) :
    CHeader.render c (o.withChecksum checksum) =
      headed "//" (o.withChecksum checksum) <$> CHeader.render c o := by
  simp only [render, map_bind, map_pure]
  rfl

private theorem Python.render_checksum (checksum : String) :
    Python.render s (o.withChecksum checksum) =
      headed "#" (o.withChecksum checksum) <$> Python.render s o := by
  simp only [render, map_bind, map_pure]
  rfl

private theorem Ruby.render_checksum (checksum : String) :
    Ruby.render s (o.withChecksum checksum) =
      headed "#" (o.withChecksum checksum) <$> Ruby.render s o := by
  simp only [render, map_bind, map_pure]
  rfl

/-- A template shows the checksum in its heading alone. -/
theorem render_checksum (t : Template) (s : Spelling) (c : CHeader.CTypes) (o : Outline)
    (checksum : String) :
    t.render s c (o.withChecksum checksum) =
      headed t.mark (o.withChecksum checksum) <$> t.render s c o := by
  cases t with
  | kotlin => exact (congrArg _ (Kotlin.render_checksum checksum)).trans (mapError_map _ _ _)
  | swift => exact (congrArg _ (Swift.render_checksum checksum)).trans (mapError_map _ _ _)
  | cHeader => exact CHeader.render_checksum checksum
  | python => exact (congrArg _ (Python.render_checksum checksum)).trans (mapError_map _ _ _)
  | ruby => exact (congrArg _ (Ruby.render_checksum checksum)).trans (mapError_map _ _ _)

/-- A template of a compact text shows no docstring. -/
theorem render_undocumented (t : Template) (s : Spelling) (c : CHeader.CTypes)
    (h : o.compact = true) : t.render s c o.undocumented = t.render s c o := by
  cases t with
  | kotlin => rw [render, render, Kotlin.render_undocumented h]
  | swift => rw [render, render, Swift.render_undocumented h]
  | cHeader => exact CHeader.render_undocumented
  | python => rw [render, render, Python.render_undocumented h]
  | ruby => rw [render, render, Ruby.render_undocumented h]

/-- Compact texts of outlines with one skeleton differ in their headings alone. -/
theorem render_of_skeleton_eq (t : Template) (s : Spelling) (c : CHeader.CTypes) {o o' : Outline}
    (h : o.skeleton = o'.skeleton) (hcompact : o.compact = true) :
    t.render s c o' = headed t.mark o' <$> t.render s c o := by
  have hcompact' : o'.compact = true := by
    change o'.skeleton.compact = true
    rw [← h]
    exact hcompact
  have hundocumented : o'.undocumented = o.undocumented.withChecksum o'.checksum :=
    congrArg (Outline.withChecksum · o'.checksum) h.symm
  have hheaded : headed t.mark (o.undocumented.withChecksum o'.checksum) = headed t.mark o' := by
    rw [← hundocumented]
    rfl
  rw [← t.render_undocumented s c hcompact', hundocumented, render_checksum,
    t.render_undocumented s c hcompact, hheaded]

end Template
end BindGen

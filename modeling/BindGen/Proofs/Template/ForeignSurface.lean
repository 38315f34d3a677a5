import BindGen.Proofs.Document.Uses
import BindGen.Proofs.Emitter.FoldOrder

/-!
# The foreign functions of an interface

All templates agree on the foreign functions. Whatever an interface declares, each template uses
each function, constructor and method once at each site that it has for them, under one symbol and
with one list of arguments, and it uses nothing else. Each argument is written under its name, and
where a site declares the function, together with its type. The text that is rendered holds all of
this.
-/

namespace BindGen

/-- What has to be agreed on for a foreign function: the symbol, whether an object is passed, and
the arguments behind the object. -/
structure ForeignEntry where
  symbol : String
  receives : Bool
  inputs : List Field
deriving DecidableEq

namespace ForeignEntry

/-- The symbol and the names of the arguments. -/
def signature (e : ForeignEntry) : String × List String := (e.symbol, Template.namesOf e.inputs)

/-- The call of a foreign function that passes its arguments under their names. -/
def call (receiver : String) (e : ForeignEntry) : ForeignUse :=
  ⟨.call, e.symbol, if e.receives then some receiver else none,
    e.inputs.map fun f => (f.name.display, f.name.display), ""⟩

end ForeignEntry

/-! ## The foreign functions that are declared -/

/-- The foreign function behind a function. -/
def FunctionDecl.foreignEntry (crate : Value) (f : FunctionDecl) : ForeignEntry :=
  ⟨(Callable.function f.name).symbol crate, false, f.inputs⟩

namespace ObjectDefinition

/-- The foreign function behind a constructor of an object. -/
def constructorEntry (crate : Value) (o : ObjectDefinition) (c : ConstructorDecl) : ForeignEntry :=
  ⟨(Callable.constructor o.name c.name).symbol crate, false, c.inputs⟩

/-- The foreign function behind a method of an object. -/
def methodEntry (crate : Value) (o : ObjectDefinition) (m : MethodDecl) : ForeignEntry :=
  ⟨(Callable.method o.name m.name).symbol crate, true, m.inputs⟩

/-- The foreign functions behind the constructors and methods of an object. -/
def foreignEntries (crate : Value) (o : ObjectDefinition) : List ForeignEntry :=
  (Table.values o.constructors).map (o.constructorEntry crate)
    ++ (Table.values o.methods).map (o.methodEntry crate)

end ObjectDefinition

/-- The foreign functions behind functions and objects. -/
def foreignEntriesOf (crate : Value) (functions : List FunctionDecl)
    (objects : List ObjectDefinition) : List ForeignEntry :=
  functions.map (·.foreignEntry crate) ++ objects.flatMap (·.foreignEntries crate)

/-- The foreign functions of an interface: one for each function, constructor and method. -/
def Interface.foreignEntries (i : Interface) : List ForeignEntry :=
  foreignEntriesOf i.crateName (Table.values i.functions) (Table.values i.objects)

/-- The symbols of the foreign functions of an interface with the names of their arguments. -/
def Interface.foreignSurface (i : Interface) : List (String × List String) :=
  i.foreignEntries.map (·.signature)

/-- The foreign functions of what an outline lists. -/
def Outline.foreignEntries (o : Outline) : List ForeignEntry :=
  foreignEntriesOf o.crateName o.functions o.objects

namespace Outline

/-- An outline lists the foreign functions of its interface in some order. -/
theorem Declares.foreignEntries_perm {o : Outline} {i : Interface} (h : o.Declares i) :
    o.foreignEntries.Perm i.foreignEntries := by
  unfold Outline.foreignEntries Interface.foreignEntries foreignEntriesOf
  rw [h.crateName]
  apply List.Perm.append
  · exact h.functions.map _
  · exact h.objects.flatMap_right _

private theorem membersInOrder_perm {α : Type} {name : α → Value} {members : Table α} {ds : List α}
    (h : membersInOrder name members = .ok ds) : ds.Perm (Table.values members) :=
  sortByKey_perm h

end Outline

namespace Template

/-! ## What templates share -/

/-- The sites at which a template uses each foreign function. -/
def sites : Template → List Site
  | kotlin => [.declaration, .call]
  | cHeader => [.declaration]
  | swift | python | ruby => [.call]

/-- How a template writes a foreign function at a site. -/
structure Form where
  /-- what stands for the object, for a method -/
  receiver : String
  /-- what stands for an argument with this name and this type -/
  argument : String → String → String
  /-- what stands in an empty argument list -/
  empty : String

/-- How the templates write foreign functions at their sites. Calls pass arguments by name, in
Kotlin types stand behind the names and in headers in front of them. -/
def form : Template → Site → Form
  | kotlin, .declaration => ⟨"ptr: Pointer", fun name type => name ++ ": " ++ type, ""⟩
  | kotlin, .call | swift, _ => ⟨"pointer", fun name _ => name, ""⟩
  | cHeader, _ => ⟨"void *ptr", fun name type => type ++ " " ++ name, "void"⟩
  | python, _ => ⟨"self._pointer", fun name _ => name, ""⟩
  | ruby, _ => ⟨"@pointer", fun name _ => name, ""⟩

/-- The type of an argument as a template spells it; in headers it is a C type. -/
def typeIn (t : Template) (s : Spelling) (c : CHeader.CTypes) (f : Field) : String :=
  match t with
  | cHeader => (c f.type.value).toOption.getD ""
  | kotlin | swift | python | ruby =>
    String.ofList ((s.typeText f.type.display.toList).toOption.getD [])

variable {s : Spelling} {c : CHeader.CTypes} {o : Outline} {d : Document}

/-- The use of a foreign function at a site of a template. -/
def use (t : Template) (s : Spelling) (c : CHeader.CTypes) (site : Site) (e : ForeignEntry) :
    ForeignUse :=
  ⟨site, e.symbol, if e.receives then some (t.form site).receiver else none,
    e.inputs.map fun f => (f.name.display, (t.form site).argument f.name.display (t.typeIn s c f)),
    (t.form site).empty⟩

/-- What a template writes for a foreign function at a site: the symbol, and in brackets the object,
if there is one, and the arguments, with commas between them. -/
def written (t : Template) (s : Spelling) (c : CHeader.CTypes) (site : Site) (e : ForeignEntry) :
    String :=
  let object := if e.receives then [(t.form site).receiver] else []
  let arguments := e.inputs.map fun f => (t.form site).argument f.name.display (t.typeIn s c f)
  e.symbol ++ "(" ++ (if object ++ arguments = [] then (t.form site).empty
    else ", ".intercalate (object ++ arguments)) ++ ")"

/-- A document of a template uses each of the foreign functions once at each site, and nothing
else. -/
def Covers (t : Template) (s : Spelling) (c : CHeader.CTypes) (es : List ForeignEntry)
    (d : Document) : Prop :=
  d.uses.Perm (t.sites.flatMap fun site => es.map (t.use s c site))

/-- A text shows each of the foreign functions, as a template writes it at each of its sites. -/
def Shows (t : Template) (s : Spelling) (c : CHeader.CTypes) (es : List ForeignEntry)
    (text : String) : Prop :=
  ∃ parts : List String, parts.Perm (t.sites.flatMap fun site => es.map (t.written s c site)) ∧
    Text.Holds parts text

private theorem text_use (t : Template) (site : Site) (e : ForeignEntry) :
    (t.use s c site e).text = t.written s c site e := by
  have hreceiver : (if e.receives then some (t.form site).receiver else none).toList =
      if e.receives then [(t.form site).receiver] else [] := by
    cases e.receives <;> rfl
  rw [ForeignUse.text, written, ForeignUse.argumentText, use]
  simp only [hreceiver, List.map_map, Function.comp_def]
  split
  · next h => rw [if_pos h]
  · next h => rw [if_neg h]

private theorem call_eq (symbol receiver : String) (receives : Bool) (inputs : List Field) :
    call symbol (if receives then some receiver else none) inputs =
      .foreign (ForeignEntry.call receiver ⟨symbol, receives, inputs⟩) := rfl

@[simp] private theorem call_function (receiver : String) (f : FunctionDecl) :
    call (functionSymbol o f) none f.inputs =
      .foreign ((f.foreignEntry o.crateName).call receiver) :=
  call_eq (functionSymbol o f) receiver false f.inputs

@[simp] private theorem call_constructor (receiver : String) (object : ObjectDefinition)
    (c : ConstructorDecl) : call (constructorSymbol o object c) none c.inputs =
      .foreign ((object.constructorEntry o.crateName c).call receiver) :=
  call_eq (constructorSymbol o object c) receiver false c.inputs

@[simp] private theorem call_method (receiver : String) (object : ObjectDefinition)
    (m : MethodDecl) :
    call (methodSymbol o object m) (some receiver) m.inputs =
      .foreign ((object.methodEntry o.crateName m).call receiver) :=
  call_eq (methodSymbol o object m) receiver true m.inputs

private theorem uses_docLines {docstring : Value} {lines : String → Document}
    (h : ∀ text, (lines text).uses = []) : (docLines o docstring lines).uses = [] := by
  unfold docLines
  split
  · exact h _
  · rfl

@[simp] private theorem uses_heading (comment : String) : (heading comment o).uses = [] := rfl

/-- Documents put together use what each of them uses. -/
theorem yields_flatten {α ε : Type} {items : List α} {render : α → Except ε Document}
    {g : α → List ForeignUse} (hr : ∀ a, Yields (fun d => d.uses.Perm (g a)) (render a)) :
    Yields (fun ds => (Document.uses ds.flatten).Perm (items.flatMap g)) (items.mapM render) := by
  intro ds h
  have hsteps := forall₂_of_mapM h
  clear h
  induction hsteps with
  | nil => exact .nil
  | cons hd _ ih =>
    rw [List.flatten_cons, Document.uses_append, List.flatMap_cons]
    exact (hr _ _ hd).append ih

private theorem yields_forEach {α : Type} {items : List α} {render : α → Except Fault Document}
    {g : α → List ForeignUse} (hr : ∀ a, Yields (fun d => d.uses.Perm (g a)) (render a)) :
    Yields (fun d => d.uses.Perm (items.flatMap g)) (forEach items render) :=
  .bind (yields_flatten hr) fun _ h => .ok h

private theorem yields_map {α β ε : Type} {items : List α} {step : α → Except ε β} {g : α → β}
    (h : ∀ a, Yields (fun b => b = g a) (step a)) :
    Yields (fun bs => bs = items.map g) (items.mapM step) := by
  intro bs hbs
  have hmap : items.map g = bs.map id :=
    map_eq_of_forall₂ ((forall₂_of_mapM hbs).imp fun a b hb => (h a b hb).symm)
  rw [hmap, List.map_id]

/-- Lines put together use what each of them uses. -/
theorem yields_lines {α ε : Type} {items : List α} {line : α → Except ε Line} {g : α → ForeignUse}
    (hl : ∀ a, Yields (fun l => l.uses = [g a]) (line a)) :
    Yields (fun d => Document.uses d = items.flatMap fun a => [g a]) (items.mapM line) := by
  intro d h
  have hsteps := forall₂_of_mapM h
  clear h
  induction hsteps with
  | nil => rfl
  | cons hd _ ih => rw [Document.uses_cons, List.flatMap_cons, hl _ _ hd, ih]

/-- Documents that use nothing use nothing together. -/
theorem plain_forEach {α : Type} {items : List α} {render : α → Except Fault Document}
    (hr : ∀ a, Yields (fun d => d.uses = []) (render a)) :
    Yields (fun d => d.uses = []) (forEach items render) := by
  intro d h
  have hp : d.uses.Perm (items.flatMap fun _ => []) := by
    refine yields_forEach (fun a x hx => ?_) d h
    exact .of_eq (hr a x hx)
  rw [List.flatMap_eq_nil_iff.mpr fun _ _ => rfl] at hp
  exact hp.eq_nil

/-- Lines that use nothing use nothing together. -/
theorem plain_mapM {α : Type} {items : List α} {line : α → Except Fault Line}
    (h : ∀ a, Yields (fun l => l.uses = []) (line a)) :
    Yields (fun d => Document.uses d = []) (items.mapM line) := by
  intro d hd
  exact Document.uses_of_forall (Yields.mapM (fun a _ => h a) d hd)

section Members

variable {use : ForeignEntry → ForeignUse} {object : ObjectDefinition}

/-- The constructors that a template lists are those of the object. -/
theorem constructors_perm {cs : List ConstructorDecl} {crate : Value}
    (h : Outline.constructorsOf object = .ok cs) :
    (cs.flatMap fun c => [use (object.constructorEntry crate c)]).Perm
      (((Table.values object.constructors).map (object.constructorEntry crate)).map use) := by
  rw [← List.map_eq_flatMap, List.map_map]
  exact (Outline.membersInOrder_perm h).map _

/-- The methods that a template lists are those of the object. -/
theorem methods_perm {ms : List MethodDecl} {crate : Value}
    (h : Outline.methodsOf object = .ok ms) :
    (ms.flatMap fun m => [use (object.methodEntry crate m)]).Perm
      (((Table.values object.methods).map (object.methodEntry crate)).map use) := by
  rw [← List.map_eq_flatMap, List.map_map]
  exact (Outline.membersInOrder_perm h).map _

private theorem members_perm {constructors methods : List ForeignUse} {crate : Value}
    (hc : constructors.Perm
      (((Table.values object.constructors).map (object.constructorEntry crate)).map use))
    (hm : methods.Perm
      (((Table.values object.methods).map (object.methodEntry crate)).map use)) :
    (constructors ++ methods).Perm ((object.foreignEntries crate).map use) := by
  rw [ObjectDefinition.foreignEntries, List.map_append]
  exact hc.append hm

/-- A document put together from those of constructors and methods. -/
theorem yields_members {ofConstructor : ConstructorDecl → Except Fault Document}
    {ofMethod : MethodDecl → Except Fault Document} {whole : Document → Document → Document}
    (hc : ∀ c, Yields (fun d => d.uses.Perm [use (object.constructorEntry o.crateName c)])
      (ofConstructor c))
    (hm : ∀ m, Yields (fun d => d.uses.Perm [use (object.methodEntry o.crateName m)]) (ofMethod m))
    (hw : ∀ constructors methods,
      (whole constructors methods).uses = constructors.uses ++ methods.uses) :
    Yields (fun d => d.uses.Perm ((object.foreignEntries o.crateName).map use)) (do
      let constructors ← forEach (← Outline.constructorsOf object) ofConstructor
      let methods ← forEach (← Outline.methodsOf object) ofMethod
      return whole constructors methods) := by
  refine .bind .self fun cs hcs => .bind (yields_forEach hc) fun constructors hconstructors => ?_
  refine .bind .self fun ms hms => .bind (yields_forEach hm) fun methods hmethods => .ok ?_
  rw [hw]
  exact members_perm (hconstructors.trans (constructors_perm hcs))
    (hmethods.trans (methods_perm hms))

/-- What is used for functions and for objects is what an outline lists. -/
theorem foreignEntries_perm {functions objects : Document}
    (hf : functions.uses.Perm
      (o.functions.flatMap fun f => [use (f.foreignEntry o.crateName)]))
    (ho : objects.uses.Perm
      (o.objects.flatMap fun object => (object.foreignEntries o.crateName).map use)) :
    (functions.uses ++ objects.uses).Perm (o.foreignEntries.map use) := by
  rw [Outline.foreignEntries, foreignEntriesOf, List.map_append, List.map_map, List.map_flatMap]
  apply List.Perm.append
  · rw [← List.map_eq_flatMap] at hf
    exact hf
  · exact ho

end Members

/-- What calls functions, behind what calls the members of objects, calls what an outline lists. -/
theorem calls_perm {receiver : String} {functions objects : Document}
    (ho : objects.uses.Perm (o.objects.flatMap fun object =>
      (object.foreignEntries o.crateName).map (ForeignEntry.call receiver)))
    (hf : functions.uses.Perm
      (o.functions.flatMap fun f => [(f.foreignEntry o.crateName).call receiver])) :
    (objects.uses ++ functions.uses).Perm (o.foreignEntries.map (ForeignEntry.call receiver)) :=
  List.perm_append_comm.trans (foreignEntries_perm hf ho)

/-- A document that only has calls covers what it calls. -/
theorem Covers.of_calls (receiver : String) {t : Template} {es : List ForeignEntry}
    (ht : t.sites = [.call]) (huse : t.use s c .call = ForeignEntry.call receiver)
    (h : d.uses.Perm (es.map (ForeignEntry.call receiver))) : t.Covers s c es d := by
  rw [Covers, ht, List.flatMap_cons, List.flatMap_nil, List.append_nil, huse]
  exact h

/-! ## Python -/

namespace Python

@[simp] private theorem uses_classDoc (docstring : Value) : (classDoc o docstring).uses = [] :=
  uses_docLines fun _ => rfl

@[simp] private theorem uses_functionDoc (margin : String) (docstring : Value) :
    (functionDoc o margin docstring).uses = [] :=
  uses_docLines fun _ => rfl

private theorem plain_record (r : RecordDecl) : Yields (fun d => d.uses = []) (record s o r) := by
  refine .next fun name => .bind (plain_forEach fun f => .next fun _ => .ok rfl) fun fields h => ?_
  apply Yields.ok
  split <;> simp [h]

private theorem plain_enum (e : EnumDecl) : Yields (fun d => d.uses = []) (enum o e) := by
  refine .next fun name => ?_
  split
  · refine .bind (plain_forEach fun v => .next fun _ => .ok rfl) fun variants h => .ok ?_
    simp [h]
  · refine .ok ?_
    simp

private theorem plain_callbackInterface (c : CallbackInterfaceDecl) :
    Yields (fun d => d.uses = []) (callbackInterface s c) := by
  refine .next fun name => ?_
  refine .bind (plain_forEach fun m => .next fun _ => .next fun _ => .ok rfl) fun methods h => ?_
  apply Yields.ok
  split <;> simp [h]

private theorem calls_function (f : FunctionDecl) : Yields (fun d =>
    d.uses.Perm [(f.foreignEntry o.crateName).call "self._pointer"])
    (function s o f) := by
  refine .next fun parameters => .next fun type => .ok ?_
  simp [call_function "self._pointer"]

private theorem calls_object (object : ObjectDefinition) : Yields (fun d =>
    d.uses.Perm
      ((object.foreignEntries o.crateName).map (ForeignEntry.call "self._pointer")))
    (Python.object s o object) := by
  refine .next fun name => yields_members (fun c => ?_) (fun m => ?_) fun _ _ => by simp
  · refine .next fun parameters => .ok ?_
    simp [call_constructor "self._pointer"]
  · refine .next fun parameters => .next fun type => .ok ?_
    simp [call_method "self._pointer"]

private theorem covers_render : Yields (python.Covers s c o.foreignEntries) (render s o) := by
  refine .next fun externals => ?_
  refine .bind (plain_forEach fun e => .next fun _ => .next fun _ => .ok rfl) fun imports hi => ?_
  refine .bind (P := fun d => d.uses = []) (.next fun _ => .ok rfl) fun loader hl => ?_
  refine .bind (plain_forEach fun c => .next fun _ => .ok rfl) fun customTypes ht => ?_
  refine .bind (plain_forEach plain_record) fun records hr => ?_
  refine .bind (plain_forEach plain_enum) fun enums he => ?_
  refine .bind (yields_forEach calls_object) fun objects ho => ?_
  refine .bind (plain_forEach plain_callbackInterface) fun callbackInterfaces hc => ?_
  refine .bind (yields_forEach calls_function) fun functions hf => .ok ?_
  refine Covers.of_calls "self._pointer" rfl rfl ?_
  simpa [hi, hl, ht, hr, he, hc] using calls_perm ho hf

end Python

/-! ## Swift -/

namespace Swift

@[simp] private theorem uses_doc (margin : String) (docstring : Value) :
    (doc o margin docstring).uses = [] :=
  uses_docLines fun _ => rfl

private theorem plain_record (r : RecordDecl) : Yields (fun d => d.uses = []) (record s o r) := by
  refine .next fun name => ?_
  refine .bind (plain_forEach fun f => .next fun _ => .next fun _ => .ok rfl) fun fields h => ?_
  apply Yields.ok
  simp [h]

private theorem plain_enum (e : EnumDecl) : Yields (fun d => d.uses = []) (enum s o e) := by
  refine .next fun name => ?_
  refine .bind (plain_mapM fun v => .next fun _ => .ok rfl) fun variants h => .ok ?_
  simp [h]

private theorem plain_callbackInterface (c : CallbackInterfaceDecl) :
    Yields (fun d => d.uses = []) (callbackInterface s c) := by
  refine .next fun name => ?_
  refine .bind (plain_forEach fun m => .next fun _ => .next fun _ => .next fun _ => .ok rfl)
    fun methods h => .ok ?_
  simp [h]

private theorem calls_function (f : FunctionDecl) : Yields (fun d =>
    d.uses.Perm [(f.foreignEntry o.crateName).call "pointer"]) (function s o f) := by
  refine .next fun name => .next fun parameters => .next fun type => .ok ?_
  simp [call_function "pointer"]

private theorem calls_object (object : ObjectDefinition) : Yields (fun d =>
    d.uses.Perm ((object.foreignEntries o.crateName).map (ForeignEntry.call "pointer")))
    (Swift.object s o object) := by
  refine .next fun name => yields_members (fun c => ?_) (fun m => ?_) fun _ _ => by simp
  · refine .next fun function => .next fun parameters => .ok ?_
    simp [call_constructor "pointer"]
  · refine .next fun function => .next fun parameters => .next fun type => .ok ?_
    simp [call_method "pointer"]

private theorem covers_render : Yields (swift.Covers s c o.foreignEntries) (render s o) := by
  refine .next fun externals => ?_
  refine .bind (plain_forEach fun e => .next fun _ => .ok rfl) fun imports hi => ?_
  refine .bind (plain_forEach fun c => .next fun _ => .ok rfl) fun customTypes ht => ?_
  refine .bind (plain_forEach plain_record) fun records hr => ?_
  refine .bind (plain_forEach plain_enum) fun enums he => ?_
  refine .bind (yields_forEach calls_object) fun objects ho => ?_
  refine .bind (plain_forEach plain_callbackInterface) fun callbackInterfaces hc => ?_
  refine .bind (yields_forEach calls_function) fun functions hf => .ok ?_
  refine Covers.of_calls "pointer" rfl rfl ?_
  simpa [hi, ht, hr, he, hc] using calls_perm ho hf

end Swift

/-! ## Ruby -/

namespace Ruby

@[simp] private theorem uses_doc (docstring : Value) : (doc o docstring).uses = [] :=
  uses_docLines fun _ => rfl

private theorem plain_record (r : RecordDecl) : Yields (fun d => d.uses = []) (record s o r) := by
  refine .bind (plain_forEach fun f => .next fun _ => .ok rfl) fun attributes h => ?_
  refine .next fun name => .ok ?_
  simp [h]

private theorem plain_enum (e : EnumDecl) : Yields (fun d => d.uses = []) (enum o e) := by
  refine .next fun name => ?_
  split
  · refine .bind (plain_mapM fun v => .next fun _ => .ok rfl) fun variants h => .ok ?_
    simp [h]
  · refine .ok ?_
    simp

private theorem calls_function (f : FunctionDecl) : Yields (fun d =>
    d.uses.Perm [(f.foreignEntry o.crateName).call "@pointer"]) (function s o f) := by
  refine .bind (plain_forEach fun a => .next fun _ => .ok rfl) fun comments h => ?_
  refine .next fun type => .ok ?_
  simp [call_function "@pointer", h]

private theorem calls_object (object : ObjectDefinition) : Yields (fun d =>
    d.uses.Perm ((object.foreignEntries o.crateName).map (ForeignEntry.call "@pointer")))
    (Ruby.object s o object) := by
  refine .next fun name => .bind .self fun cs hcs => .bind .self fun ms hms => ?_
  refine .bind (yields_forEach (g := fun m => [(object.methodEntry o.crateName m).call "@pointer"])
    fun m => ?_) fun methods hmethods => .ok ?_
  · refine .next fun type => .ok ?_
    simp [call_method "@pointer"]
  · have hconstructors : (cs.flatMap fun c =>
        [(object.constructorEntry o.crateName c).call "@pointer"]).Perm _ := constructors_perm hcs
    have hp := members_perm hconstructors (hmethods.trans (methods_perm hms))
    simpa [call_constructor "@pointer"] using hp

private theorem covers_render : Yields (ruby.Covers s c o.foreignEntries) (render s o) := by
  refine .next fun externals => ?_
  refine .bind (plain_forEach fun e => .next fun _ => .ok rfl) fun imports hi => ?_
  refine .next fun cdylib => .next fun name => ?_
  refine .bind (plain_forEach plain_record) fun records hr => ?_
  refine .bind (plain_forEach plain_enum) fun enums he => ?_
  refine .bind (yields_forEach calls_object) fun objects ho => ?_
  refine .bind (yields_forEach calls_function) fun functions hf => .ok ?_
  refine Covers.of_calls "@pointer" rfl rfl ?_
  simpa [hi, hr, he] using calls_perm ho hf

end Ruby

/-! ## Kotlin -/

namespace Kotlin

@[simp] private theorem uses_doc (margin : String) (docstring : Value) :
    (doc o margin docstring).uses = [] :=
  uses_docLines fun _ => rfl

/-- What declares a foreign function writes its arguments with their types. -/
theorem declares_foreign (symbol : String) (receives : Bool) (inputs : List Field) :
    Yields (fun p => p = .foreign (kotlin.use s c .declaration ⟨symbol, receives, inputs⟩))
      (foreign s symbol (if receives then some "ptr: Pointer" else none) inputs) := by
  refine .bind (yields_map (g := fun f => (f.name.display, kotlin.typeIn s c f)) fun f => ?_)
    fun ps h => .ok ?_
  · refine .bind .self fun type htype => .ok ?_
    rw [typeIn, htype]
    rfl
  · rw [h, declaration, List.map_map]
    rfl

/-- The interface of foreign functions declares each of them once. -/
theorem declares_library : Yields (fun d =>
    d.uses.Perm (o.foreignEntries.map (kotlin.use s c .declaration))) (library s o) := by
  refine .bind (yields_forEach (g := fun f =>
    [kotlin.use s c .declaration (f.foreignEntry o.crateName)]) fun f => ?_) fun functions hf => ?_
  · refine .bind (declares_foreign (c := c) _ false f.inputs) fun p h => .next fun type => .ok ?_
    rw [h]
    exact .refl _
  refine .bind (yields_forEach (g := fun object =>
    (object.foreignEntries o.crateName).map (kotlin.use s c .declaration)) fun object => ?_)
    fun members ho => ?_
  · refine yields_members (fun d => ?_) (fun m => ?_) Document.uses_append
    · refine .bind (declares_foreign (c := c) _ false d.inputs) fun p h => .ok ?_
      rw [h]
      exact .refl _
    · refine .bind (declares_foreign (c := c) _ true m.inputs) fun p h => .next fun type => .ok ?_
      rw [h]
      exact .refl _
  · refine .next fun cdylib => .ok ?_
    simpa using foreignEntries_perm hf ho

private theorem plain_record (r : RecordDecl) : Yields (fun d => d.uses = []) (record s o r) := by
  refine .next fun name => ?_
  refine .bind (plain_forEach fun f => .next fun _ => .next fun _ => .ok rfl) fun fields h => ?_
  apply Yields.ok
  simp [h]

private theorem plain_enum (e : EnumDecl) : Yields (fun d => d.uses = []) (enum o e) := by
  refine .next fun name => ?_
  split
  · refine .bind (plain_mapM fun v => .next fun _ => .ok rfl) fun variants h => .ok ?_
    simp [h]
  · refine .ok ?_
    simp

private theorem plain_callbackInterface (c : CallbackInterfaceDecl) :
    Yields (fun d => d.uses = []) (callbackInterface s c) := by
  refine .next fun name => ?_
  refine .bind (plain_forEach fun m => .next fun _ => .next fun _ => .next fun _ => .ok rfl)
    fun methods h => .ok ?_
  simp [h]

private theorem calls_function (f : FunctionDecl) : Yields (fun d =>
    d.uses.Perm [(f.foreignEntry o.crateName).call "pointer"]) (function s o f) := by
  unfold function
  -- The lines in front are plain, whether they name an error or not.
  split
  · refine .next fun error => .bind (P := fun d => Document.uses d = []) (.ok rfl) fun throws h => ?_
    refine .next fun name => .next fun parameters => .next fun type => .ok ?_
    simp [call_function "pointer", h]
  · refine .bind (P := fun d => Document.uses d = []) (.ok rfl) fun throws h => ?_
    refine .next fun name => .next fun parameters => .next fun type => .ok ?_
    simp [call_function "pointer", h]

private theorem calls_companion (object : ObjectDefinition) (name : String) : Yields (fun d =>
    d.uses.Perm (((Table.values object.constructors).map
      (object.constructorEntry o.crateName)).map (ForeignEntry.call "pointer")))
    (companion s o object name) := by
  unfold companion
  split
  · next hempty =>
    refine .ok ?_
    rw [List.isEmpty_iff.mp hempty]
    exact .nil
  · refine .bind .self fun cs hcs => ?_
    refine .bind (yields_forEach (g := fun c =>
      [(object.constructorEntry o.crateName c).call "pointer"]) fun c => ?_)
      fun constructors hconstructors => .ok ?_
    · refine .next fun function => .next fun parameters => .ok ?_
      simp [call_constructor "pointer"]
    · simpa using hconstructors.trans (constructors_perm hcs)

private theorem calls_object (object : ObjectDefinition) : Yields (fun d =>
    d.uses.Perm ((object.foreignEntries o.crateName).map (ForeignEntry.call "pointer")))
    (Kotlin.object s o object) := by
  refine .next fun name => .bind (calls_companion object name) fun companion hc => ?_
  refine .bind .self fun ms hms => ?_
  refine .bind (yields_forEach (g := fun m =>
    [(object.methodEntry o.crateName m).call "pointer"]) fun m => ?_) fun methods hm => .ok ?_
  · refine .next fun function => .next fun parameters => .next fun type => .ok ?_
    simp [call_method "pointer"]
  · simpa using members_perm hc (hm.trans (methods_perm hms))

private theorem covers_render : Yields (kotlin.Covers s c o.foreignEntries) (render s o) := by
  refine .next fun externals => ?_
  refine .bind (plain_forEach fun e => .next fun _ => .ok rfl) fun imports hi => ?_
  refine .bind (declares_library (c := c)) fun library hl => ?_
  refine .bind (plain_forEach fun c => .next fun _ => .ok rfl) fun customTypes ht => ?_
  refine .bind (plain_forEach plain_record) fun records hr => ?_
  refine .bind (plain_forEach plain_enum) fun enums he => ?_
  refine .bind (yields_forEach calls_object) fun objects ho => ?_
  refine .bind (plain_forEach plain_callbackInterface) fun callbackInterfaces hc => ?_
  refine .bind (yields_forEach calls_function) fun functions hf => .ok ?_
  have hcalls : (objects.uses ++ functions.uses).Perm
      (o.foreignEntries.map (kotlin.use s c .call)) := calls_perm ho hf
  simpa [Covers, hi, ht, hr, he, hc, sites] using hl.append hcalls

end Kotlin

/-! ## C headers -/

namespace CHeader

/-- What declares a foreign function writes its arguments with their types. -/
theorem declares_prototype (symbol : String) (receives : Bool) (inputs : List Field) :
    Yields (fun p => p = .foreign (cHeader.use s c .declaration ⟨symbol, receives, inputs⟩))
      (prototype c symbol (if receives then some "void *ptr" else none) inputs) := by
  refine .bind (yields_map (g := fun f => (f.name.display, cHeader.typeIn s c f)) fun f => ?_)
    fun ps h => .ok ?_
  · refine .bind .self fun type htype => .ok ?_
    rw [typeIn, htype]
    rfl
  · rw [h, declaration, List.map_map]
    rfl

private theorem covers_render : Yields (cHeader.Covers s c o.foreignEntries) (render c o) := by
  refine .bind (yields_lines (g := fun f =>
    cHeader.use s c .declaration (f.foreignEntry o.crateName)) fun f => ?_) fun functions hf => ?_
  · refine .next fun type => .bind (declares_prototype (s := s) _ false f.inputs) fun p h => .ok ?_
    rw [h]
    rfl
  refine .bind (yields_flatten (g := fun object =>
    (object.foreignEntries o.crateName).map (cHeader.use s c .declaration)) fun object => ?_)
    fun members ho => ?_
  · refine .bind .self fun cs hcs => ?_
    refine .bind (yields_lines (g := fun d =>
      cHeader.use s c .declaration (object.constructorEntry o.crateName d)) fun d => ?_)
      fun constructors hconstructors => ?_
    · refine .bind (declares_prototype (s := s) _ false d.inputs) fun p h => .ok ?_
      rw [h]
      rfl
    refine .bind .self fun ms hms => ?_
    refine .bind (yields_lines (g := fun m =>
      cHeader.use s c .declaration (object.methodEntry o.crateName m)) fun m => ?_)
      fun methods hmethods => .ok ?_
    · refine .next fun type => ?_
      refine .bind (declares_prototype (s := s) _ true m.inputs) fun p h => .ok ?_
      rw [h]
      rfl
    · rw [Document.uses_append, hconstructors, hmethods]
      exact members_perm (constructors_perm (eq_ok_of_mapError hcs))
        (methods_perm (eq_ok_of_mapError hms))
  · refine .ok ?_
    simpa [Covers, sites] using foreignEntries_perm (.of_eq hf) ho

end CHeader

/-! ## All templates -/

/-- Whatever a template is rendered from, it covers the foreign functions that are listed. -/
theorem covers_render {t : Template} (h : t.render s c o = .ok d) :
    t.Covers s c o.foreignEntries d := by
  cases t with
  | kotlin => exact Kotlin.covers_render d (eq_ok_of_mapError h)
  | swift => exact Swift.covers_render d (eq_ok_of_mapError h)
  | cHeader => exact CHeader.covers_render d h
  | python => exact Python.covers_render d (eq_ok_of_mapError h)
  | ruby => exact Ruby.covers_render d (eq_ok_of_mapError h)

namespace Covers

variable {t : Template} {es es' : List ForeignEntry}

/-- Which entries are covered does not rest on their order. -/
theorem perm (h : t.Covers s c es d) (hp : es.Perm es') : t.Covers s c es' d :=
  h.trans (.flatMap_left _ fun _ _ => hp.map _)

/-- At each of its sites a template shows the signatures of what it covers. -/
theorem surface_perm (h : t.Covers s c es d) {site : Site} (hs : site ∈ t.sites) :
    (d.surface site).Perm (es.map (·.signature)) := by
  have hsite (site' : Site) : ((es.map (t.use s c site')).filter (·.site = site)).map
      (fun u => (u.symbol, u.arguments.map (·.1))) =
      if site' = site then es.map (·.signature) else [] := by
    split
    · next heq => simp [heq, use, List.filter_map, ForeignEntry.signature, namesOf, Function.comp_def]
    · next hne => simp [use, List.filter_map, Function.comp_def, hne]
  rw [Document.surface_eq]
  apply ((h.filter _).map _).trans
  rw [List.filter_flatMap, List.map_flatMap]
  simp only [hsite]
  -- A template has each of its sites once.
  cases t <;> cases site <;> simp_all [sites]

/-- A text that holds what a document uses shows what the document covers. -/
theorem shows_of_holds (h : t.Covers s c es d) {text : String}
    (ht : Text.Holds (d.uses.map ForeignUse.text) text) : t.Shows s c es text := by
  refine ⟨_, (h.map ForeignUse.text).trans (.of_eq ?_), ht⟩
  rw [List.map_flatMap]
  simp only [List.map_map, Function.comp_def, text_use]

/-- The text of a document holds the symbols of what the document covers, each in front of the
bracket of its argument list. -/
theorem holds_symbols (h : t.Covers s c es d) : ∃ parts : List String,
    parts.Perm (t.sites.flatMap fun _ => es.map (·.symbol ++ "(")) ∧ Text.Holds parts d.text := by
  refine ⟨_, (h.map (·.symbol ++ "(")).trans (.of_eq ?_), d.holds_uses.map_start fun u => ?_⟩
  · rw [List.map_flatMap]
    simp only [List.map_map]
    rfl
  · exact ⟨u.argumentText ++ ")", String.append_assoc ..⟩

end Covers

end Template

namespace Interface

/-- All templates agree on the foreign functions of an interface: in every language, under all
settings, a document uses each function, constructor and method once at each of its sites, with its
symbol and the names of its arguments. The text of the file shows this: it holds, one behind the
other, the symbols with their arguments in brackets, each argument as the template writes it from
its name, and so does a compact text, as long as no name breaks a line. Documents of typed groups
can be written if the settings name what is linked to. -/
theorem foreignSurface_agrees (i : Interface) (settings : Settings) (l : Language) (t : Template)
    (ht : t ∈ l.templateList) (o : Outline) (ho : l.style.outlineFor i settings = .ok o) :
    (∀ d, t.render l.style.spelling l.style.cTypes o = .ok d →
      t.Covers l.style.spelling l.style.cTypes i.foreignEntries d ∧
      (∀ site ∈ t.sites, (d.surface site).Perm i.foreignSurface) ∧
      t.Shows l.style.spelling l.style.cTypes i.foreignEntries d.text ∧
      (d.Unbroken →
        t.Shows l.style.spelling l.style.cTypes i.foreignEntries (Document.compact d.text)) ∧
      l.style.textOf t.name o = .ok (if o.compact then Document.compact d.text else d.text)) ∧
    (i.Reachable → o.Linkable → ∃ d, t.render l.style.spelling l.style.cTypes o = .ok d) := by
  obtain ⟨seen, -, ho⟩ := exists_of_bind_eq_ok ho
  have hdeclares := Outline.declares_of_ofInterface ho
  constructor
  · intro d hd
    have hcovers := (Template.covers_render hd).perm hdeclares.foreignEntries_perm
    refine ⟨hcovers, fun site hsite => hcovers.surface_perm hsite, ?_, ?_, Style.textOf_name hd⟩
    · exact hcovers.shows_of_holds d.holds_uses
    · exact fun hd => hcovers.shows_of_holds (Document.holds_compact hd)
  · intro hi hl
    exact Template.render_isOk ht (hdeclares.writable hi.wellFiled hl)

-- An interface with a function and an object.
private def counter : Interface where
  namespaceName := "demo"
  crateName := "demo"
  functions :=
    [("add", ⟨"demo", "add", [⟨"a", "u32"⟩, ⟨"b", "u32"⟩], "u32", .null, .bool false, .null⟩)]
  objects := [("Counter", ⟨⟨"demo", "Counter", .null⟩,
    [("new", ⟨"demo", "Counter", "new", [], .null, .null⟩)],
    [("bump", ⟨"demo", "Counter", "bump", [⟨"by", "u32"⟩], .null, .null, .bool false, .null⟩)]⟩)]
  records := []
  enums := []
  callbackInterfaces := []
  customTypes := []

-- The items that make up the interface.
private def counterGroup : Group where
  declared := ⟨"demo", "demo"⟩
  items :=
    [.function ⟨"demo", "add", [⟨"a", "u32"⟩, ⟨"b", "u32"⟩], "u32", .null, .bool false, .null⟩,
      .object ⟨"demo", "Counter", .null⟩,
      .constructor ⟨"demo", "Counter", "new", [], .null, .null⟩,
      .method ⟨"demo", "Counter", "bump", [⟨"by", "u32"⟩], .null, .null, .bool false, .null⟩]

-- Settings without any keys.
private def unset : Settings := ⟨none, [], [], #[], [], false⟩

private theorem reachable_counter : counter.Reachable := by
  have hadd : (empty.addGroup counterGroup).1 = counter := rfl
  rw [← hadd]
  exact .addGroup .empty rfl

private theorem written_counter :
    (Template.kotlin.sites.flatMap fun site => counter.foreignEntries.map
      (Template.kotlin.written Language.kotlin.spelling Language.kotlin.style.cTypes site)) =
      ["ffigen_demo_fn_func_add(a: UInt, b: UInt)", "ffigen_demo_fn_constructor_counter_new()",
        "ffigen_demo_fn_method_counter_bump(ptr: Pointer, by: UInt)",
        "ffigen_demo_fn_func_add(a, b)", "ffigen_demo_fn_constructor_counter_new()",
        "ffigen_demo_fn_method_counter_bump(pointer, by)"] := by
  decide +kernel

/-- The Kotlin file of an interface with a function and an object declares and calls three foreign
functions. -/
theorem foreignSurface_agrees_counter : ∃ o d,
    Language.kotlin.style.outlineFor counter unset = .ok o ∧
    Language.kotlin.style.textOf Template.kotlin.name o = .ok (Document.text d) ∧
    (∀ site, (d.surface site).Perm
      [("ffigen_demo_fn_func_add", ["a", "b"]), ("ffigen_demo_fn_constructor_counter_new", []),
        ("ffigen_demo_fn_method_counter_bump", ["by"])]) ∧
    ∃ parts, Text.Holds parts d.text ∧ parts.Perm
      ["ffigen_demo_fn_func_add(a: UInt, b: UInt)", "ffigen_demo_fn_constructor_counter_new()",
        "ffigen_demo_fn_method_counter_bump(ptr: Pointer, by: UInt)",
        "ffigen_demo_fn_func_add(a, b)", "ffigen_demo_fn_constructor_counter_new()",
        "ffigen_demo_fn_method_counter_bump(pointer, by)"] := by
  have ho : Language.kotlin.style.outlineFor counter unset =
      .ok (counter.outline [] "demo" "ffigen.bindings") := by
    rw [Style.outlineFor, Settings.bindingsFor_plain _ _ rfl, ok_bind,
      reachable_counter.wellFiled.ofInterface_eq]
    rfl
  have hagrees := foreignSurface_agrees counter unset .kotlin .kotlin (by decide) _ ho
  obtain ⟨d, hd⟩ := hagrees.2 reachable_counter
    (Outline.linkable_of_texts Table.textKeyed_nil (fun _ he => absurd he List.not_mem_nil) rfl)
  obtain ⟨-, hsurface, ⟨parts, hparts, hholds⟩, -, htext⟩ := hagrees.1 d hd
  refine ⟨_, d, ho, htext, fun site => hsurface site ?_, parts, hholds, ?_⟩
  · cases site <;> decide
  · exact hparts.trans (.of_eq written_counter)

end Interface
end BindGen

import BindGen.Proofs.Interface.Surface
import BindGen.Proofs.Template.ForeignSurface

/-!
# Ambiguous foreign symbols

Two callables of a crate can have one symbol. Objects are lowered in symbols, so that objects which
differ in case are one, and the underscore between the parts of a symbol may stand in the parts too.
These are the only ways to meet: they need two constructors or two methods, of different objects.
-/

namespace BindGen

namespace Callable

/-! ## Where symbols meet -/

/-- The first object goes on, behind an underscore, to the second one, and what it goes on with is
taken from the front of the first name. -/
def Shifts (object name object' name' : String) : Prop :=
  ∃ middle, object' = object ++ "_" ++ middle ∧ name = middle ++ "_" ++ name'

/-- Members that have one symbol: their objects are told apart by case alone, or not by more than
what is taken from the name of one of them. -/
def MembersMeet (object name object' name' : Value) : Prop :=
  (object.lowered = object'.lowered ∧ name.display = name'.display) ∨
    Shifts object.lowered name.display object'.lowered name'.display ∨
    Shifts object'.lowered name'.display object.lowered name.display

/-- Callables that have one symbol. -/
def Meets : Callable → Callable → Prop
  | function name, function name' => name.display = name'.display
  | constructor object name, constructor object' name' => MembersMeet object name object' name'
  | method object name, method object' name' => MembersMeet object name object' name'
  | _, _ => False

/-- Parts joined by an underscore are the same, or one of the first parts is a longer one. -/
theorem joined_eq_iff (object name object' name' : String) :
    object ++ "_" ++ name = object' ++ "_" ++ name' ↔
      (object = object' ∧ name = name') ∨ Shifts object name object' name' ∨
        Shifts object' name' object name := by
  have hshifts {front back front' back' middle : List Char} (hfront : front' = front ++ middle)
      (hback : '_' :: back = middle ++ '_' :: back') :
      (front = front' ∧ back = back') ∨
        ∃ m, front' = front ++ '_' :: m ∧ back = m ++ '_' :: back' := by
    cases middle with
    | nil => exact .inl ⟨by simpa using hfront.symm, (List.cons.inj hback).2⟩
    | cons c m =>
      obtain ⟨rfl, rfl⟩ := List.cons.inj hback
      exact .inr ⟨m, hfront, rfl⟩
  have hof {front back front' back' : String} {m : List Char}
      (hfront : front'.toList = front.toList ++ '_' :: m)
      (hback : back.toList = m ++ '_' :: back'.toList) : Shifts front back front' back' :=
    ⟨String.ofList m, String.toList_inj.mp (by simpa using hfront),
      String.toList_inj.mp (by simpa using hback)⟩
  constructor
  · intro h
    replace h : object.toList ++ '_' :: name.toList = object'.toList ++ '_' :: name'.toList := by
      simpa using congrArg String.toList h
    rcases List.append_eq_append_iff.mp h with ⟨middle, hfront, hback⟩ | ⟨middle, hfront, hback⟩
    · obtain ⟨ho, hn⟩ | ⟨m, hfront, hback⟩ := hshifts hfront hback
      · exact .inl ⟨String.toList_inj.mp ho, String.toList_inj.mp hn⟩
      · exact .inr (.inl (hof hfront hback))
    · obtain ⟨ho, hn⟩ | ⟨m, hfront, hback⟩ := hshifts hfront hback
      · exact .inl ⟨String.toList_inj.mp ho.symm, String.toList_inj.mp hn.symm⟩
      · exact .inr (.inr (hof hfront hback))
  · rintro (⟨rfl, rfl⟩ | ⟨middle, rfl, rfl⟩ | ⟨middle, rfl, rfl⟩)
    · rfl
    · simp only [String.append_assoc]
    · simp only [String.append_assoc]

/-- The part of a symbol behind the crate. -/
def ending : Callable → String
  | function name => "func_" ++ name.display
  | constructor object name => "constructor_" ++ (object.lowered ++ "_" ++ name.display)
  | method object name => "method_" ++ (object.lowered ++ "_" ++ name.display)

private theorem symbol_eq (crate : Value) (c : Callable) :
    c.symbol crate = "ffigen_" ++ crate.display ++ "_fn_" ++ c.ending := by
  cases c <;> simp [symbol, ending, toString, String.append_assoc, ← String.toList_inj]

/-- Two callables of a crate have one symbol exactly if they meet. -/
theorem symbol_eq_iff (crate : Value) (c c' : Callable) :
    c.symbol crate = c'.symbol crate ↔ c.Meets c' := by
  rw [symbol_eq, symbol_eq, String.append_right_inj]
  -- the first letter of the ending tells the kind
  cases c with
  | function name => cases c' <;> simp [ending, Meets, ← String.toList_inj]
  | constructor object name =>
    cases c' with
    | constructor object' name' =>
      exact (String.append_right_inj _).trans (joined_eq_iff ..)
    | function name' => simp [ending, Meets, ← String.toList_inj]
    | method object' name' => simp [ending, Meets, ← String.toList_inj]
  | method object name =>
    cases c' with
    | method object' name' =>
      exact (String.append_right_inj _).trans (joined_eq_iff ..)
    | function name' => simp [ending, Meets, ← String.toList_inj]
    | constructor object' name' => simp [ending, Meets, ← String.toList_inj]

/-- The object of a member. -/
def object? : Callable → Option Value
  | function _ => none
  | constructor object _ => some object
  | method object _ => some object

/-- The name of a function or a member. -/
def name : Callable → Value
  | function name => name
  | constructor _ name => name
  | method _ name => name

/-- Members of one object meet in one name only. -/
theorem MembersMeet.display_eq {object name name' : Value}
    (h : MembersMeet object name object name') : name.display = name'.display := by
  have hshift {n n' : String} (hs : Shifts object.lowered n object.lowered n') : False := by
    obtain ⟨middle, hobject, -⟩ := hs
    have hlength := congrArg (fun s => s.toList.length) hobject
    simp only [String.toList_append, List.length_append] at hlength
    have : "_".toList.length = 1 := rfl
    omega
  rcases h with h | h | h
  · exact h.2
  · exact (hshift h).elim
  · exact (hshift h).elim

/-- Callables with texts as names are the same if they meet and do not have different objects. -/
theorem eq_of_meets {c c' : Callable} (hc : c.name.isText = true) (hc' : c'.name.isText = true)
    (h : c.Meets c') (ho : c.object? = c'.object?) : c = c' := by
  have hname {name name' : Value} (hn : name.isText = true) (hn' : name'.isText = true)
      (hd : name.display = name'.display) : name = name' := by
    obtain ⟨s, rfl⟩ := Value.isText_iff.mp hn
    obtain ⟨s', rfl⟩ := Value.isText_iff.mp hn'
    exact congrArg Value.text hd
  cases c with
  | function name =>
    cases c' with
    | function name' => exact congrArg function (hname hc hc' h)
    | constructor => exact h.elim
    | method => exact h.elim
  | constructor object name =>
    cases c' with
    | constructor object' name' =>
      obtain rfl := Option.some.inj ho
      exact congrArg (constructor object) (hname hc hc' (MembersMeet.display_eq h))
    | function => exact h.elim
    | method => exact h.elim
  | method object name =>
    cases c' with
    | method object' name' =>
      obtain rfl := Option.some.inj ho
      exact congrArg (method object) (hname hc hc' (MembersMeet.display_eq h))
    | function => exact h.elim
    | constructor => exact h.elim

end Callable

/-! ## The callables of an interface -/

section Filed

variable {α : Type} [Declaration α] [TypedDeclaration α] {t : Table α}

/-- No two declarations that are filed have one name. -/
theorem Table.Filed.nodup_names (h : Filed t) :
    ((values t).map TypedDeclaration.name).Nodup := by
  have hnames : (values t).map TypedDeclaration.name = (keys t).map Value.scalar := by
    rw [values, keys, List.map_map, List.map_map]
    exact List.map_congr_left h.named
  have hkeys : (keys t).Nodup := by
    refine List.pairwise_map.mpr (h.distinct.imp fun {a b} hne heq => ?_)
    rw [heq, Scalar.same_refl] at hne
    cases hne
  rw [hnames]
  exact hkeys.map fun _ _ => Value.scalar.inj

private theorem Table.Filed.isText_of_mem_values (h : Filed t) {d : α} (hd : d ∈ values t) :
    (TypedDeclaration.name d).isText = true := by
  obtain ⟨e, he, rfl⟩ := List.mem_map.mp hd
  exact TypedDeclaration.isText_name (h.typed e he)

end Filed

namespace ObjectDefinition

variable {o : ObjectDefinition} {c : Callable}

/-- The constructors and methods of an object. -/
def callables (o : ObjectDefinition) : List Callable :=
  ((Table.values o.constructors).map ConstructorDecl.name).map (.constructor o.name)
    ++ ((Table.values o.methods).map MethodDecl.name).map (.method o.name)

private theorem object?_of_mem_callables (h : c ∈ o.callables) : c.object? = some o.name := by
  rcases List.mem_append.mp h with h | h <;> obtain ⟨n, -, rfl⟩ := List.mem_map.mp h <;> rfl

private theorem WellFiled.nodup_callables (h : o.WellFiled) : o.callables.Nodup := by
  refine List.nodup_append.mpr ⟨?_, ?_, fun a ha b hb => ?_⟩
  · exact h.constructors.nodup_names.map fun _ _ heq => (Callable.constructor.inj heq).2
  · exact h.methods.nodup_names.map fun _ _ heq => (Callable.method.inj heq).2
  · obtain ⟨n, -, rfl⟩ := List.mem_map.mp ha
    obtain ⟨n', -, rfl⟩ := List.mem_map.mp hb
    exact fun heq => by cases heq

private theorem WellFiled.isText_of_mem_callables (h : o.WellFiled) (hc : c ∈ o.callables) :
    c.name.isText = true := by
  rcases List.mem_append.mp hc with hc | hc
  · obtain ⟨n, hn, rfl⟩ := List.mem_map.mp hc
    obtain ⟨d, hd, rfl⟩ := List.mem_map.mp hn
    exact h.constructors.isText_of_mem_values hd
  · obtain ⟨n, hn, rfl⟩ := List.mem_map.mp hc
    obtain ⟨d, hd, rfl⟩ := List.mem_map.mp hn
    exact h.methods.isText_of_mem_values hd

end ObjectDefinition

namespace Interface

variable {i : Interface} {c : Callable}

/-- The functions, constructors and methods of an interface. -/
def callables (i : Interface) : List Callable :=
  ((Table.values i.functions).map FunctionDecl.name).map .function
    ++ (Table.values i.objects).flatMap ObjectDefinition.callables

/-- The foreign functions of an interface have the symbols of its callables. -/
theorem symbols_foreignEntries (i : Interface) :
    i.foreignEntries.map ForeignEntry.symbol = i.callables.map (·.symbol i.crateName) := by
  simp only [foreignEntries, foreignEntriesOf, callables, List.map_append, List.map_map,
    List.map_flatMap, ObjectDefinition.foreignEntries, ObjectDefinition.callables]
  rfl

/-- No callable is filed twice. -/
theorem WellFiled.nodup_callables (h : i.WellFiled) : i.callables.Nodup := by
  refine List.nodup_append.mpr
    ⟨?_, List.nodup_flatMap.mpr ⟨fun o ho => ?_, ?_⟩, fun a ha b hb => ?_⟩
  · exact h.functions.nodup_names.map fun _ _ => Callable.function.inj
  · obtain ⟨e, he, rfl⟩ := List.mem_map.mp ho
    exact (h.objects.wellFiled e he).nodup_callables
  · -- the callables of two objects differ in their objects
    have hnames : ((Table.values i.objects).map ObjectDefinition.name).Nodup := by
      have hnames := h.objects.declarations.nodup_names
      rw [Table.values, Table.mapValues, List.map_map, List.map_map] at hnames
      rwa [Table.values, List.map_map]
    refine (List.pairwise_map.mp hnames).imp fun hne c hc hc' => hne ?_
    exact Option.some.inj ((ObjectDefinition.object?_of_mem_callables hc).symm.trans
      (ObjectDefinition.object?_of_mem_callables hc'))
  · obtain ⟨n, -, rfl⟩ := List.mem_map.mp ha
    obtain ⟨o, -, hb⟩ := List.mem_flatMap.mp hb
    rintro rfl
    exact Option.some_ne_none _ (ObjectDefinition.object?_of_mem_callables hb).symm

private theorem WellFiled.isText_of_mem_callables (h : i.WellFiled) (hc : c ∈ i.callables) :
    c.name.isText = true := by
  rcases List.mem_append.mp hc with hc | hc
  · obtain ⟨n, hn, rfl⟩ := List.mem_map.mp hc
    obtain ⟨d, hd, rfl⟩ := List.mem_map.mp hn
    exact h.functions.isText_of_mem_values hd
  · obtain ⟨o, ho, hc⟩ := List.mem_flatMap.mp hc
    obtain ⟨e, he, rfl⟩ := List.mem_map.mp ho
    exact (h.objects.wellFiled e he).isText_of_mem_callables hc

/-- Two callables have one symbol exactly if they meet. No callable is filed twice by folding typed
groups, and different ones that meet are members of different objects. The templates show these
symbols and no others, each once at each of their sites, and the text that they render holds each of
them as often, in front of the bracket of its argument list. -/
theorem symbol_eq_iff_meets (i : Interface) :
    (∀ c c' : Callable, c.symbol i.crateName = c'.symbol i.crateName ↔ c.Meets c') ∧
    (i.Reachable → i.callables.Nodup ∧ ∀ c ∈ i.callables, ∀ c' ∈ i.callables,
      c ≠ c' → c.Meets c' → c.object? ≠ c'.object?) ∧
    (∀ (settings : Settings) (l : Language) (t : Template) (o : Outline) (d : Document),
      l.style.outlineFor i settings = .ok o →
      t.render l.style.spelling l.style.cTypes o = .ok d →
      (∀ site ∈ t.sites,
        ((d.surface site).map Prod.fst).Perm (i.callables.map (·.symbol i.crateName))) ∧
      ∃ parts : List String, parts.Perm
        (t.sites.flatMap fun _ => i.callables.map fun c => c.symbol i.crateName ++ "(") ∧
        Text.Holds parts d.text) := by
  refine ⟨Callable.symbol_eq_iff i.crateName, fun hi => ?_, fun settings l t o d ho hd => ?_⟩
  · refine ⟨hi.wellFiled.nodup_callables, fun c hc c' hc' hne hm ho => hne ?_⟩
    exact Callable.eq_of_meets (hi.wellFiled.isText_of_mem_callables hc)
      (hi.wellFiled.isText_of_mem_callables hc') hm ho
  · obtain ⟨seen, -, ho⟩ := exists_of_bind_eq_ok ho
    have hentries := (Outline.declares_of_ofInterface ho).foreignEntries_perm
    have hcovers := (Template.covers_render hd).perm hentries
    constructor
    · intro site hs
      have hsymbols := (hcovers.surface_perm hs).map Prod.fst
      rw [List.map_map] at hsymbols
      rw [← symbols_foreignEntries]
      exact hsymbols
    · have hopened : (i.foreignEntries.map fun e => e.symbol ++ "(") =
          i.callables.map fun c => c.symbol i.crateName ++ "(" := by
        simpa [Function.comp_def] using congrArg (List.map (· ++ "(")) i.symbols_foreignEntries
      obtain ⟨parts, hparts, hholds⟩ := hcovers.holds_symbols
      rw [hopened] at hparts
      exact ⟨parts, hparts, hholds⟩

/-- The methods of one object have symbols of their own in a Kotlin file. -/
theorem symbol_eq_iff_meets_shape :
    let settings : Settings := ⟨none, [], [], #[], [], false⟩
    ∃ o d, Language.kotlin.style.outlineFor (shape ["area", "scale"]) settings = .ok o ∧
      Template.kotlin.render Language.kotlin.style.spelling Language.kotlin.style.cTypes o =
        .ok d ∧
      ((d.surface .call).map Prod.fst).Perm
        ["ffigen_geo_fn_method_shape_area", "ffigen_geo_fn_method_shape_scale"] ∧
      ((d.surface .call).map Prod.fst).Nodup := by
  intro settings
  have hreachable : Reachable (shape ["area", "scale"]) := reachable_shape (by decide) rfl
  have ho : Language.kotlin.style.outlineFor (shape ["area", "scale"]) settings =
      .ok ((shape ["area", "scale"]).outline [] "geo" "ffigen.bindings") := by
    rw [Style.outlineFor, Settings.bindingsFor_plain _ _ rfl, ok_bind,
      hreachable.wellFiled.ofInterface_eq]
    rfl
  obtain ⟨seen, -, hof⟩ := exists_of_bind_eq_ok ho
  have hwritable := (Outline.declares_of_ofInterface hof).writable hreachable.wellFiled
    (Outline.linkable_of_texts Table.textKeyed_nil (fun _ he => absurd he List.not_mem_nil) rfl)
  have hkotlin : Template.kotlin ∈ Language.kotlin.templateList := by decide
  obtain ⟨d, hd⟩ := Template.render_isOk hkotlin hwritable
  obtain ⟨-, hmembers, hshown⟩ := symbol_eq_iff_meets (shape ["area", "scale"])
  have hperm := (hshown _ .kotlin .kotlin _ d ho hd).1 .call (by decide)
  have hobject : ∀ c ∈ (shape ["area", "scale"]).callables, c.object? = some (.text "Shape") := by
    have hcallables : (shape ["area", "scale"]).callables =
        [.method (.text "Shape") (.text "area"), .method (.text "Shape") (.text "scale")] := rfl
    simp [hcallables, Callable.object?]
  refine ⟨_, d, ho, hd, hperm.trans (.of_eq (by decide)), hperm.nodup_iff.mpr ?_⟩
  refine (hmembers hreachable).1.map_on fun c hc c' hc' hsymbol => ?_
  by_contra hne
  refine (hmembers hreachable).2 c hc c' hc' hne ?_ ((hobject c hc).trans (hobject c' hc').symm)
  exact (Callable.symbol_eq_iff _ c c').mp hsymbol

/-- A group of two objects that differ in case, with one method each. -/
def casedGroup : Group :=
  ⟨⟨.text "geo", .text "geo"⟩, ["Shape", "SHAPE"].flatMap fun object =>
    [.object ⟨.text "geo", .text object, .null⟩,
      .method ⟨.text "geo", .text object, .text "area", [], .null, .null, .bool false, .null⟩]⟩

/-- Symbols are not unambiguous. -/
theorem not_symbol_injective : ¬ ∀ i : Interface, i.Reachable →
    ∀ c ∈ i.callables, ∀ c' ∈ i.callables, c ≠ c' →
      c.symbol i.crateName ≠ c'.symbol i.crateName := by
  intro h
  have hcallables : (empty.addGroup casedGroup).1.callables =
      [.method (.text "Shape") (.text "area"), .method (.text "SHAPE") (.text "area")] := rfl
  refine h (empty.addGroup casedGroup).1 (.addGroup .empty (by decide))
    (.method (.text "Shape") (.text "area")) ?_ (.method (.text "SHAPE") (.text "area")) ?_ ?_ ?_
  · simp [hcallables]
  · simp [hcallables]
  · simp
  · decide

end Interface
end BindGen

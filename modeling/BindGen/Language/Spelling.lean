import BindGen.Language.Naming
import BindGen.Language.Pattern
import BindGen.Text.Blank

/-!
# Spelling types and names

How a language writes the types of an interface and the names of functions. Built-in types have a
spelling of their own, containers a pattern that takes the spellings of their parts, and every other
type its class name.
-/

namespace BindGen

/-- How a language spells types and functions. -/
structure Spelling where
  builtins : List (String × String)
  sequencePattern : String
  mapPattern : String
  optionalPattern : String
  camelCase : Bool

/-- Splits a text at its first comma outside angle brackets. Models `_split_pair`. -/
def splitAtComma (depth : Int) : List Char → Option (List Char × List Char)
  | [] => none
  | c :: rest =>
    if c = ',' ∧ depth = 0 then some ([], rest)
    else
      let depth := if c = '<' then depth + 1 else if c = '>' then depth - 1 else depth
      (splitAtComma depth rest).map fun (front, back) => (c :: front, back)

/-- The key and the value type of a map; without a comma there is no value type. -/
def keyAndValue (s : List Char) : List Char × Option (List Char) :=
  match splitAtComma 0 s with
  | some (key, value) => (Text.trim key, some (Text.trim value))
  | none => (Text.trim s, none)

/-- The parts that a split keeps are shorter than the text. -/
theorem splitAtComma_length {depth : Int} {s front back : List Char}
    (h : splitAtComma depth s = some (front, back)) :
    front.length + back.length < s.length := by
  induction s generalizing depth front with
  | nil => simp [splitAtComma] at h
  | cons c rest ih =>
    rw [splitAtComma] at h
    split at h
    · simp_all
    · simp only [Option.map_eq_some_iff, Prod.exists, Prod.mk.injEq] at h
      obtain ⟨f, b, hs, rfl, rfl⟩ := h
      have := ih hs
      simp only [List.length_cons]
      omega

private theorem trim_length_le (s : List Char) : (Text.trim s).length ≤ s.length := by
  have left : (Text.trimLeft s).length ≤ s.length := (List.dropWhile_suffix _).length_le
  have right (t : List Char) : (Text.trimRight t).length ≤ t.length := by
    simpa [Text.trimRight] using (List.dropWhile_suffix (l := t.reverse) Text.isBlank).length_le
  exact Nat.le_trans (right _) left

/-- The form of a type text. -/
inductive TypeShape where
  | named (name : List Char)
  | optional (inner : List Char)
  | sequence (inner : List Char)
  | map (key value : List Char)

/-- What stands between a container's name with its bracket and the closing bracket. -/
def bracketed (container : String) (s : List Char) : Option (List Char) :=
  (Text.afterPrefix? container.toList s).bind (Text.beforeSuffix? ['>'])

/-- The form of a type text. The value type of a map that has none is `string`. -/
def TypeShape.ofText (s : List Char) : TypeShape :=
  let name := Text.trim s
  match Text.beforeSuffix? ['?'] name with
  | some inner => .optional inner
  | none =>
    match bracketed "sequence<" name with
    | some inner => .sequence inner
    | none =>
      match bracketed "record<" name with
      | some inner =>
        let (key, value) := keyAndValue inner
        .map key (value.getD "string".toList)
      | none => .named name

private theorem beforeSuffix?_length {suffix s front : List Char}
    (h : Text.beforeSuffix? suffix s = some front) : front.length + suffix.length = s.length := by
  simp only [Text.beforeSuffix?, Option.map_eq_some_iff] at h
  obtain ⟨r, hr, rfl⟩ := h
  simpa using Text.afterPrefix?_length hr

private theorem bracketed_length {container : String} {s inner : List Char}
    (h : bracketed container s = some inner) :
    inner.length + container.toList.length < s.length := by
  simp only [bracketed, Option.bind_eq_some_iff] at h
  obtain ⟨after, ha, hi⟩ := h
  have := Text.afterPrefix?_length ha
  have := beforeSuffix?_length hi
  simp only [List.length_cons, List.length_nil] at this
  omega

/-- The types that a type is made of. -/
def TypeShape.parts : TypeShape → List (List Char)
  | named _ => []
  | optional inner => [inner]
  | sequence inner => [inner]
  | map key value => [key, value]

private theorem keyAndValue_length (s : List Char) :
    (keyAndValue s).1.length + ((keyAndValue s).2.getD "string".toList).length ≤ s.length + 6 := by
  unfold keyAndValue
  split
  · next front back hp =>
    have := splitAtComma_length hp
    have := trim_length_le front
    have := trim_length_le back
    simp only [Option.getD_some]
    omega
  · have := trim_length_le s
    have : "string".toList.length = 6 := by decide
    simp only [Option.getD_none]
    omega

/-- The parts of a type are shorter than the type, even with one more character for each. -/
theorem TypeShape.length_parts_le (s : List Char) :
    (ofText s).parts.flatten.length + (ofText s).parts.length ≤ s.length := by
  have ht := trim_length_le s
  simp only [ofText]
  split
  · next hb =>
    have := beforeSuffix?_length hb
    simp only [parts, List.flatten_cons, List.flatten_nil, List.append_nil, List.length_cons,
      List.length_nil] at this ⊢
    omega
  · split
    · next hb =>
      have := bracketed_length hb
      simp only [parts, List.flatten_cons, List.flatten_nil, List.append_nil, List.length_cons,
        List.length_nil]
      omega
    · split
      · next inner hb =>
        have := bracketed_length hb
        have : "record<".toList.length = 7 := by decide
        have := keyAndValue_length inner
        simp only [parts, List.flatten_cons, List.flatten_nil, List.append_nil, List.length_append,
          List.length_cons, List.length_nil]
        omega
      · exact Nat.zero_le _

/-- The parts of a type are shorter than the type. -/
theorem TypeShape.length_of_mem_parts {s part : List Char} (h : part ∈ (ofText s).parts) :
    part.length < s.length := by
  have hlength := length_parts_le s
  obtain ⟨front, back, hparts⟩ := List.append_of_mem h
  simp only [hparts, List.flatten_append, List.flatten_cons, List.length_append,
    List.length_cons] at hlength
  omega

namespace Spelling

/-- The spelling of a type by name. -/
def named (s : Spelling) (name : List Char) : List Char :=
  match s.builtins.lookup (String.ofList name) with
  | some spelling => spelling.toList
  | none => Naming.className name

/-- The spelling of a type text. Models `TemplateEmitter.render_type`. -/
def typeText (s : Spelling) (type : List Char) : Except Fault (List Char) :=
  have shorter {part : List Char} (h : part ∈ (TypeShape.ofText type).parts) :=
    TypeShape.length_of_mem_parts h
  match h : TypeShape.ofText type with
  | .named name => .ok (s.named name)
  | .optional inner => do
    have : inner.length < type.length := shorter (by simp [h, TypeShape.parts])
    Pattern.fill s.optionalPattern [("inner", ← s.typeText inner)]
  | .sequence inner => do
    have : inner.length < type.length := shorter (by simp [h, TypeShape.parts])
    Pattern.fill s.sequencePattern [("inner", ← s.typeText inner)]
  | .map key value => do
    have : key.length < type.length := shorter (by simp [h, TypeShape.parts])
    have : value.length < type.length := shorter (by simp [h, TypeShape.parts])
    Pattern.fill s.mapPattern [("key", ← s.typeText key), ("value", ← s.typeText value)]
termination_by type.length

/-- The spelling of no type. -/
def noType (s : Spelling) : String := (s.builtins.lookup "void").getD "void"

/-- The spelling of a type that may be absent. -/
def typeOf (s : Spelling) (type : Value) : Except Fault String :=
  match type with
  | .null => .ok s.noType
  | .text t => do return String.ofList (← s.typeText t.toList)
  | .scalar (.broken _) => do return String.ofList (← s.typeText type.display.toList)
  | v => .error (.noOperation v.typeName "strip")

/-- The spelling of a function's name. Models `TemplateEmitter.fn_name`. -/
def functionName (s : Spelling) (name : Value) : Except Fault String :=
  if s.camelCase then Naming.camelCaseOf name else .ok name.display

end Spelling
end BindGen

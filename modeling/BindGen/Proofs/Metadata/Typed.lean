import BindGen.Interface.Declaration
import BindGen.Metadata.Group
import BindGen.Proofs.Value.Table

/-!
# Items with typed fields

The fields of an item hold whatever its payload had. An item is typed if each field holds what it is
declared to hold: a text, a text or nothing, or a flag. Of typed items the comparison by content is
equality, and the docstring of a declaration can be exchanged without touching anything else.
-/

namespace BindGen

namespace Value

/-- Whether a value is a text. -/
def isText : Value → Bool
  | text _ => true
  | _ => false

/-- Whether a value is a text or null. -/
def isOptionalText : Value → Bool
  | text _ | null => true
  | _ => false

/-- Whether a value is a truth value. -/
def isFlag : Value → Bool
  | bool _ => true
  | _ => false

/-- A text is a text. -/
@[simp] theorem isText_text (s : String) : (text s).isText = true := rfl

/-- A text may stand where a text is optional. -/
@[simp] theorem isOptionalText_text (s : String) : (text s).isOptionalText = true := rfl

/-- A null may stand where a text is optional. -/
@[simp] theorem isOptionalText_null : null.isOptionalText = true := rfl

/-- A truth value is a flag. -/
@[simp] theorem isFlag_bool (b : Bool) : (bool b).isFlag = true := rfl

/-- Texts are what is made from a text. -/
theorem isText_iff {v : Value} : v.isText = true ↔ ∃ s : String, v = text s := by
  constructor
  · intro h
    unfold isText at h
    split at h
    · exact ⟨_, rfl⟩
    · cases h
  · rintro ⟨s, rfl⟩
    rfl

/-- A text is optional where it is a text or null. -/
theorem isOptionalText_iff {v : Value} :
    v.isOptionalText = true ↔ v = null ∨ ∃ s : String, v = text s := by
  constructor
  · intro h
    unfold isOptionalText at h
    split at h
    · exact Or.inr ⟨_, rfl⟩
    · exact Or.inl rfl
    · cases h
  · rintro (rfl | ⟨s, rfl⟩) <;> rfl

/-- Flags are the truth values. -/
theorem isFlag_iff {v : Value} : v.isFlag = true ↔ ∃ b : Bool, v = bool b := by
  constructor
  · intro h
    unfold isFlag at h
    split at h
    · exact ⟨_, rfl⟩
    · cases h
  · rintro ⟨b, rfl⟩
    rfl

/-- A text may stand where a text is optional. -/
theorem isOptionalText_of_isText {v : Value} (h : v.isText = true) : v.isOptionalText = true :=
  isOptionalText_iff.mpr (Or.inr (isText_iff.mp h))

/-- Null is the only value that is null. -/
theorem isNull_iff {v : Value} : v.isNull = true ↔ v = null := by
  constructor
  · intro h
    unfold isNull at h
    split at h
    · rfl
    · cases h
  · rintro rfl
    rfl

/-- Scalars are what is made from a scalar. -/
theorem scalar?_eq_some_iff {v : Value} {s : Scalar} : v.scalar? = some s ↔ v = scalar s := by
  cases v <;> simp [scalar?]

/-- Whether a value is null can be decided. -/
instance (v : Value) : Decidable (v = null) := decidable_of_iff _ isNull_iff

/-- Optional texts have the same content only if they are equal. -/
theorem same_iff_of_isOptionalText {v w : Value} (hv : v.isOptionalText = true)
    (hw : w.isOptionalText = true) : v.same w = true ↔ v = w := by
  obtain rfl | ⟨s, rfl⟩ := isOptionalText_iff.mp hv <;>
    obtain rfl | ⟨t, rfl⟩ := isOptionalText_iff.mp hw <;>
    simp [Scalar.same, Scalar.identity]

/-- Texts have the same content only if they are equal. -/
theorem same_iff_of_isText {v w : Value} (hv : v.isText = true) (hw : w.isText = true) :
    v.same w = true ↔ v = w :=
  same_iff_of_isOptionalText (isOptionalText_of_isText hv) (isOptionalText_of_isText hw)

/-- A comparison of texts tells whether they are equal. -/
theorem equals_iff_of_isText {v w : Value} (hv : v.isText = true) (hw : w.isText = true) :
    v.equals w = true ↔ v = w := by
  have hnumber : (v.scalar? != some (.float .nan)) = true := by
    obtain ⟨s, rfl⟩ := isText_iff.mp hv
    rfl
  rw [equals, hnumber, Bool.and_true]
  exact same_iff_of_isText hv hw

/-- Truth values have the same content only if they are equal. -/
theorem same_iff_of_isFlag {v w : Value} (hv : v.isFlag = true) (hw : w.isFlag = true) :
    v.same w = true ↔ v = w := by
  obtain ⟨a, rfl⟩ := isFlag_iff.mp hv
  obtain ⟨b, rfl⟩ := isFlag_iff.mp hw
  cases a <;> cases b <;> simp [Scalar.same, Scalar.identity]

end Value

namespace FunctionDecl

/-- Whether the parts of a function have the types that its class names. -/
def isTyped (d : FunctionDecl) : Bool :=
  d.modulePath.isText && d.name.isText && d.returnType.isOptionalText && d.throws.isOptionalText
    && d.isAsync.isFlag && d.docstring.isOptionalText

private theorem same_iff {a b : FunctionDecl} (ha : a.isTyped = true) (hb : b.isTyped = true) :
    a.same b = true ↔ a = b := by
  cases a
  cases b
  simp only [isTyped, Bool.and_eq_true] at ha hb
  simp [same, Value.same_iff_of_isText, Value.same_iff_of_isOptionalText,
    Value.same_iff_of_isFlag, ha, hb, and_assoc]

private theorem sameList_iff {as bs : List FunctionDecl} (ha : as.all isTyped = true)
    (hb : bs.all isTyped = true) : sameList as bs = true ↔ as = bs := by
  induction as generalizing bs with
  | nil => cases bs <;> simp [sameList]
  | cons a as ih =>
    cases bs with
    | nil => simp [sameList]
    | cons b bs =>
      rw [List.all_cons, Bool.and_eq_true] at ha hb
      rw [sameList, Bool.and_eq_true, same_iff ha.1 hb.1, ih ha.2 hb.2, List.cons.injEq]

end FunctionDecl

/-- Whether the parts of a namespace have the types that its class names. -/
def NamespaceDecl.isTyped (d : NamespaceDecl) : Bool := d.crateName.isText && d.name.isText

/-- Whether the parts of a definition file have the types that its class names. -/
def UdlFileDecl.isTyped (d : UdlFileDecl) : Bool :=
  d.modulePath.isText && d.namespaceName.isText && d.fileStub.isText

/-- Whether the parts of a constructor have the types that its class names. -/
def ConstructorDecl.isTyped (d : ConstructorDecl) : Bool :=
  d.modulePath.isText && d.selfName.isText && d.name.isText && d.throws.isOptionalText
    && d.docstring.isOptionalText

/-- Whether the parts of a method have the types that its class names. -/
def MethodDecl.isTyped (d : MethodDecl) : Bool :=
  d.modulePath.isText && d.selfName.isText && d.name.isText && d.returnType.isOptionalText
    && d.throws.isOptionalText && d.isAsync.isFlag && d.docstring.isOptionalText

/-- Whether the parts of a record have the types that its class names. -/
def RecordDecl.isTyped (d : RecordDecl) : Bool :=
  d.modulePath.isText && d.name.isText && d.docstring.isOptionalText

/-- Whether the parts of an enum have the types that its class names. -/
def EnumDecl.isTyped (d : EnumDecl) : Bool :=
  d.modulePath.isText && d.name.isText && d.isError.isFlag && d.docstring.isOptionalText

/-- Whether the parts of an object have the types that its class names. -/
def ObjectDecl.isTyped (d : ObjectDecl) : Bool :=
  d.modulePath.isText && d.name.isText && d.docstring.isOptionalText

/-- Whether the parts of a callback interface have the types that its class names. -/
def CallbackInterfaceDecl.isTyped (d : CallbackInterfaceDecl) : Bool :=
  d.modulePath.isText && d.name.isText && d.methods.all FunctionDecl.isTyped
    && d.docstring.isOptionalText

/-- Whether the parts of a custom type have the types that its class names. -/
def CustomTypeDecl.isTyped (d : CustomTypeDecl) : Bool :=
  d.modulePath.isText && d.name.isText && d.builtin.isText

private theorem NamespaceDecl.same_iff {a b : NamespaceDecl} (ha : a.isTyped = true)
    (hb : b.isTyped = true) : a.same b = true ↔ a = b := by
  cases a
  cases b
  simp only [isTyped, Bool.and_eq_true] at ha hb
  simp [same, Value.same_iff_of_isText, ha, hb]

private theorem UdlFileDecl.same_iff {a b : UdlFileDecl} (ha : a.isTyped = true)
    (hb : b.isTyped = true) :
    a.same b = true ↔ a = b := by
  cases a
  cases b
  simp only [isTyped, Bool.and_eq_true] at ha hb
  simp [same, Value.same_iff_of_isText, ha, hb, and_assoc]

private theorem ConstructorDecl.same_iff {a b : ConstructorDecl} (ha : a.isTyped = true)
    (hb : b.isTyped = true) : a.same b = true ↔ a = b := by
  cases a
  cases b
  simp only [isTyped, Bool.and_eq_true] at ha hb
  simp [same, Value.same_iff_of_isText, Value.same_iff_of_isOptionalText, ha, hb, and_assoc]

private theorem MethodDecl.same_iff {a b : MethodDecl} (ha : a.isTyped = true)
    (hb : b.isTyped = true) :
    a.same b = true ↔ a = b := by
  cases a
  cases b
  simp only [isTyped, Bool.and_eq_true] at ha hb
  simp [same, Value.same_iff_of_isText, Value.same_iff_of_isOptionalText,
    Value.same_iff_of_isFlag, ha, hb, and_assoc]

private theorem RecordDecl.same_iff {a b : RecordDecl} (ha : a.isTyped = true)
    (hb : b.isTyped = true) :
    a.same b = true ↔ a = b := by
  cases a
  cases b
  simp only [isTyped, Bool.and_eq_true] at ha hb
  simp [same, Value.same_iff_of_isText, Value.same_iff_of_isOptionalText, ha, hb, and_assoc]

private theorem EnumDecl.same_iff {a b : EnumDecl} (ha : a.isTyped = true) (hb : b.isTyped = true) :
    a.same b = true ↔ a = b := by
  cases a
  cases b
  simp only [isTyped, Bool.and_eq_true] at ha hb
  simp [same, Value.same_iff_of_isText, Value.same_iff_of_isOptionalText,
    Value.same_iff_of_isFlag, ha, hb, and_assoc]

private theorem ObjectDecl.same_iff {a b : ObjectDecl} (ha : a.isTyped = true)
    (hb : b.isTyped = true) :
    a.same b = true ↔ a = b := by
  cases a
  cases b
  simp only [isTyped, Bool.and_eq_true] at ha hb
  simp [same, Value.same_iff_of_isText, Value.same_iff_of_isOptionalText, ha, hb, and_assoc]

private theorem CallbackInterfaceDecl.same_iff {a b : CallbackInterfaceDecl} (ha : a.isTyped = true)
    (hb : b.isTyped = true) : a.same b = true ↔ a = b := by
  cases a
  cases b
  simp only [isTyped, Bool.and_eq_true] at ha hb
  simp [same, Value.same_iff_of_isText, Value.same_iff_of_isOptionalText,
    FunctionDecl.sameList_iff, ha, hb, and_assoc]

private theorem CustomTypeDecl.same_iff {a b : CustomTypeDecl} (ha : a.isTyped = true)
    (hb : b.isTyped = true) : a.same b = true ↔ a = b := by
  cases a
  cases b
  simp only [isTyped, Bool.and_eq_true] at ha hb
  simp [same, Value.same_iff_of_isText, ha, hb, and_assoc]

namespace Item

/-- Whether the fields of an item hold what they are declared to hold. -/
def isTyped : Item → Bool
  | namespaceDecl d => d.isTyped
  | udlFile d => d.isTyped
  | function d => d.isTyped
  | constructor d => d.isTyped
  | method d => d.isTyped
  | record d => d.isTyped
  | enum d => d.isTyped
  | object d => d.isTyped
  | callbackInterface d => d.isTyped
  | customType d => d.isTyped

/-- Typed items have the same content only if they are equal. -/
theorem same_iff {a b : Item} (ha : a.isTyped = true) (hb : b.isTyped = true) :
    a.same b = true ↔ a = b := by
  cases a <;> cases b <;> simp only [isTyped] at ha hb <;>
    simp [same, NamespaceDecl.same_iff, UdlFileDecl.same_iff, FunctionDecl.same_iff,
      ConstructorDecl.same_iff, MethodDecl.same_iff, RecordDecl.same_iff, EnumDecl.same_iff,
      ObjectDecl.same_iff, CallbackInterfaceDecl.same_iff, CustomTypeDecl.same_iff, ha, hb]

end Item

/-- Whether the names and the items of a group hold what they are declared to hold. -/
def Group.isTyped (g : Group) : Bool := g.declared.isTyped && g.items.all Item.isTyped

/-- A group is typed where its namespace and each of its items are. -/
theorem Group.isTyped_iff {g : Group} :
    g.isTyped = true ↔ g.declared.isTyped = true ∧ ∀ a ∈ g.items, a.isTyped = true := by
  rw [isTyped, Bool.and_eq_true, List.all_eq_true]

namespace Declaration

variable {α : Type} [Declaration α]

/-- The docstring of a declaration; null stands for none. -/
def doc (d : α) : Value := (docstring? d).getD .null

/-- A declaration without its docstring. -/
def bare (d : α) : α := withDocstring d .null

end Declaration

open Declaration in
/-- Kinds of declarations with a name, whose typed declarations are compared by equality and whose
docstring is a field of its own. -/
class TypedDeclaration (α : Type) [Declaration α] where
  /-- the name that a declaration is filed under -/
  name : α → Value
  /-- whether the fields hold what they are declared to hold -/
  isTyped : α → Bool
  isText_name : ∀ {d : α}, isTyped d = true → (name d).isText = true
  isOptionalText_doc : ∀ {d : α}, isTyped d = true → (doc d).isOptionalText = true
  same_iff : ∀ {a b : α}, isTyped a = true → isTyped b = true → (same a b = true ↔ a = b)
  isTyped_withDocstring : ∀ {d : α} {v : Value}, isTyped d = true → v.isOptionalText = true →
    isTyped (withDocstring d v) = true
  withDocstring_doc : ∀ d : α, withDocstring d (doc d) = d := by exact fun _ => rfl
  withDocstring_withDocstring : ∀ (d : α) (v w : Value),
    withDocstring (withDocstring d v) w = withDocstring d w := by exact fun _ _ _ => rfl
  /-- either all declarations of the kind have a docstring or none has -/
  docstring?_cases : (∀ d : α, docstring? d = none ∧ ∀ v, withDocstring d v = d) ∨
    ∀ d : α, docstring? d = some (doc d) ∧ ∀ v, doc (withDocstring d v) = v := by
    exact Or.inr fun _ => ⟨rfl, fun _ => rfl⟩

/-- Functions are declarations with types. -/
instance : TypedDeclaration FunctionDecl where
  name := FunctionDecl.name
  isTyped := FunctionDecl.isTyped
  isText_name h := by simp_all [FunctionDecl.isTyped]
  isOptionalText_doc h := by
    simp_all [FunctionDecl.isTyped, Declaration.doc, Declaration.docstring?]
  same_iff := FunctionDecl.same_iff
  isTyped_withDocstring h hv := by
    simp_all [FunctionDecl.isTyped, Declaration.withDocstring]

/-- Constructors are declarations with types. -/
instance : TypedDeclaration ConstructorDecl where
  name := ConstructorDecl.name
  isTyped := ConstructorDecl.isTyped
  isText_name h := by simp_all [ConstructorDecl.isTyped]
  isOptionalText_doc h := by
    simp_all [ConstructorDecl.isTyped, Declaration.doc, Declaration.docstring?]
  same_iff := ConstructorDecl.same_iff
  isTyped_withDocstring h hv := by
    simp_all [ConstructorDecl.isTyped, Declaration.withDocstring]

/-- Methods are declarations with types. -/
instance : TypedDeclaration MethodDecl where
  name := MethodDecl.name
  isTyped := MethodDecl.isTyped
  isText_name h := by simp_all [MethodDecl.isTyped]
  isOptionalText_doc h := by
    simp_all [MethodDecl.isTyped, Declaration.doc, Declaration.docstring?]
  same_iff := MethodDecl.same_iff
  isTyped_withDocstring h hv := by
    simp_all [MethodDecl.isTyped, Declaration.withDocstring]

/-- Records are declarations with types. -/
instance : TypedDeclaration RecordDecl where
  name := RecordDecl.name
  isTyped := RecordDecl.isTyped
  isText_name h := by simp_all [RecordDecl.isTyped]
  isOptionalText_doc h := by
    simp_all [RecordDecl.isTyped, Declaration.doc, Declaration.docstring?]
  same_iff := RecordDecl.same_iff
  isTyped_withDocstring h hv := by
    simp_all [RecordDecl.isTyped, Declaration.withDocstring]

/-- Enums are declarations with types. -/
instance : TypedDeclaration EnumDecl where
  name := EnumDecl.name
  isTyped := EnumDecl.isTyped
  isText_name h := by simp_all [EnumDecl.isTyped]
  isOptionalText_doc h := by
    simp_all [EnumDecl.isTyped, Declaration.doc, Declaration.docstring?]
  same_iff := EnumDecl.same_iff
  isTyped_withDocstring h hv := by
    simp_all [EnumDecl.isTyped, Declaration.withDocstring]

/-- Objects are declarations with types. -/
instance : TypedDeclaration ObjectDecl where
  name := ObjectDecl.name
  isTyped := ObjectDecl.isTyped
  isText_name h := by simp_all [ObjectDecl.isTyped]
  isOptionalText_doc h := by
    simp_all [ObjectDecl.isTyped, Declaration.doc, Declaration.docstring?]
  same_iff := ObjectDecl.same_iff
  isTyped_withDocstring h hv := by
    simp_all [ObjectDecl.isTyped, Declaration.withDocstring]

/-- Callback interfaces are declarations with types. -/
instance : TypedDeclaration CallbackInterfaceDecl where
  name := CallbackInterfaceDecl.name
  isTyped := CallbackInterfaceDecl.isTyped
  isText_name h := by simp_all [CallbackInterfaceDecl.isTyped]
  isOptionalText_doc h := by
    simp_all [CallbackInterfaceDecl.isTyped, Declaration.doc, Declaration.docstring?]
  same_iff := CallbackInterfaceDecl.same_iff
  isTyped_withDocstring h hv := by
    simp_all [CallbackInterfaceDecl.isTyped, Declaration.withDocstring]

/-- Custom types are declarations with types. -/
instance : TypedDeclaration CustomTypeDecl where
  name := CustomTypeDecl.name
  isTyped := CustomTypeDecl.isTyped
  isText_name h := by simp_all [CustomTypeDecl.isTyped]
  isOptionalText_doc _ := rfl
  same_iff := CustomTypeDecl.same_iff
  isTyped_withDocstring h _ := h
  docstring?_cases := Or.inl fun _ => ⟨rfl, fun _ => rfl⟩

end BindGen

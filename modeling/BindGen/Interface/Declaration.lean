import BindGen.Metadata.Payload

/-!
# Declarations

What the kinds of declarations in an interface have in common: a comparison by content, the fields
they are made of, and, for all but custom types, a docstring. Two declarations of one name merge if
they are the same, or if one of them lacks a docstring and they are the same otherwise; the
documented one is kept.
-/

namespace BindGen

/-- A kind of declarations. -/
class Declaration (α : Type) where
  /-- whether two declarations have the same content -/
  same : α → α → Bool
  /-- the docstring, for kinds that have one -/
  docstring? : α → Option Value
  /-- the declaration with another docstring -/
  withDocstring : α → Value → α
  /-- all fields -/
  fields : α → Table Value

/-- Functions are declarations. -/
instance : Declaration FunctionDecl where
  same := FunctionDecl.same
  docstring? d := some d.docstring
  withDocstring d v := { d with docstring := v }
  fields := FunctionDecl.fields

/-- Constructors are declarations. -/
instance : Declaration ConstructorDecl where
  same := ConstructorDecl.same
  docstring? d := some d.docstring
  withDocstring d v := { d with docstring := v }
  fields := ConstructorDecl.fields

/-- Methods are declarations. -/
instance : Declaration MethodDecl where
  same := MethodDecl.same
  docstring? d := some d.docstring
  withDocstring d v := { d with docstring := v }
  fields := MethodDecl.fields

/-- Records are declarations. -/
instance : Declaration RecordDecl where
  same := RecordDecl.same
  docstring? d := some d.docstring
  withDocstring d v := { d with docstring := v }
  fields := RecordDecl.payloadFields

/-- Enums are declarations. -/
instance : Declaration EnumDecl where
  same := EnumDecl.same
  docstring? d := some d.docstring
  withDocstring d v := { d with docstring := v }
  fields := EnumDecl.fields

/-- Objects are declarations. -/
instance : Declaration ObjectDecl where
  same := ObjectDecl.same
  docstring? d := some d.docstring
  withDocstring d v := { d with docstring := v }
  fields := ObjectDecl.fields

/-- Callback interfaces are declarations. -/
instance : Declaration CallbackInterfaceDecl where
  same := CallbackInterfaceDecl.same
  docstring? d := some d.docstring
  withDocstring d v := { d with docstring := v }
  fields := CallbackInterfaceDecl.fields

/-- Custom types are declarations. -/
instance : Declaration CustomTypeDecl where
  same := CustomTypeDecl.same
  docstring? _ := none
  withDocstring d _ := d
  fields := CustomTypeDecl.fields

namespace Declaration

variable {α : Type} [Declaration α]

/-- Whether the first declaration has no docstring and becomes the second with the second's. -/
def undocumentedForm (bare full : α) : Bool :=
  match docstring? bare, docstring? full with
  | some b, some f => b.isNull && same (withDocstring bare f) full
  | _, _ => false

/-- The declaration that two of one name stand for, if they agree. Models `_merge`. -/
def merge? (existing incoming : α) : Option α :=
  if same existing incoming then some existing
  else if undocumentedForm existing incoming then some incoming
  else if undocumentedForm incoming existing then some existing
  else none

end Declaration
end BindGen

import BindGen.Text.Blank
import BindGen.Text.Word
import BindGen.Udl.Attributes

/-!
# Members

What stands between two semicolons of a definition: a function or method, a constructor, or a field.
A field is a type, blanks and a name; a callable is the same followed by arguments in parentheses.
Where attributes and at least two blanks stand in front of a name without a type, the type is blank.
-/

namespace BindGen.Udl

open Text

/-- The characters that a type may be made of. -/
def isTypeChar (c : Char) : Bool :=
  isWord c || c == '<' || c == '>' || c == '?' || c == ',' || isBlank c

/-- A type and the name behind it. -/
structure TypedName where
  type : List Char
  name : List Char
deriving DecidableEq

namespace TypedName

/-- Splits a text without outer blanks into a type, blanks and a name. If the name stands alone, the
type is blank, which takes `margin`: blanks in front of the text that can serve as type and gap. -/
def split? (margin : Bool) (s : List Char) : Option TypedName :=
  let (front, name) := splitTail isWord s
  if name.isEmpty || !front.all isTypeChar then none
  else if front.isEmpty then if margin then some ⟨[], name⟩ else none
  else if (front.getLast?.map isBlank).getD false then some ⟨normalType front, name⟩
  else none

end TypedName

/-- The field that a text without outer blanks writes. Models `_FIELD`. -/
def field? (s : List Char) : Option TypedName := TypedName.split? false s

/-- What stands between parentheses that end the text, with no parenthesis inside. -/
def argumentsText? (s : List Char) : Option (List Char) :=
  match s with
  | '(' :: rest =>
    match splitTail (· == ')') rest with
    | (inner, [_]) => if inner.any (fun c => c == '(' || c == ')') then none else some inner
    | _ => none
  | _ => none

/-- A function or method as it is written. -/
structure CallableText where
  attributes : Attributes
  result : List Char
  name : List Char
  arguments : List Char

/-- The function or method that a text without outer blanks writes. Models `_CALLABLE`. -/
def callable? (member : List Char) : Option CallableText := do
  let (brackets, rest) ← takeBrackets member
  let declaration := trimLeft rest
  let margin := brackets.isSome && rest.length - declaration.length ≥ 2
  let head := declaration.takeWhile (· != '(')
  let arguments ← argumentsText? (declaration.dropWhile (· != '('))
  let typed ← TypedName.split? margin (trimRight head)
  return ⟨Attributes.ofText? brackets, typed.type, typed.name, arguments⟩

/-- A constructor as it is written. -/
structure ConstructorText where
  attributes : Attributes
  arguments : List Char

/-- The constructor that a text without outer blanks writes. Models `_CONSTRUCTOR`. -/
def constructor? (member : List Char) : Option ConstructorText := do
  let (brackets, rest) ← takeBrackets member
  let after ← afterPrefix? "constructor".toList (trimLeft rest)
  let arguments ← argumentsText? (trimLeft after)
  return ⟨Attributes.ofText? brackets, arguments⟩

/-- The parts of a text between the commas that stand outside angle brackets. Models
`_split_top_level`. -/
def splitTopLevel (depth : Int) : List Char → List (List Char)
  | [] => [[]]
  | c :: rest =>
    let depth := if c = '<' then depth + 1 else if c = '>' then depth - 1 else depth
    if c = ',' ∧ depth = 0 then [] :: splitTopLevel depth rest
    else match splitTopLevel depth rest with
      | [] => [[c]]
      | part :: parts => (c :: part) :: parts

/-- The arguments of a callable, as texts without outer blanks; blank ones are left out. Models
`_Parser._arguments`. -/
def argumentTexts (s : List Char) : List (List Char) :=
  ((splitTopLevel 0 s).map trim).filter (· != [])

/-- The name of an enum variant: a word in double quotes. Models `_VARIANT`. -/
def variantName? (s : List Char) : Option (List Char) :=
  match s with
  | '"' :: rest =>
    match splitTail (· == '"') rest with
    | (name, [_]) => if isWordText name then some name else none
    | _ => none
  | _ => none

/-- A member without outer blanks, and its offset in the text that holds it. -/
structure Placed where
  text : List Char
  offset : Nat

/-- The members of pieces between semicolons, of which the first starts at the offset. -/
def placed (offset : Nat) : List (List Char) → List Placed
  | [] => []
  | piece :: rest =>
    let next := placed (offset + piece.length + 1) rest
    let start := offset + (piece.length - (trimLeft piece).length)
    if allBlank piece then next else ⟨trim piece, start⟩ :: next

/-- The members of a body that starts at the offset. -/
def members (offset : Nat) (body : List Char) : List Placed := placed offset (cut (· == ';') body)

/-- Whether a semicolon follows the last member. -/
def isTerminated (body : List Char) : Bool :=
  match (trimRight body).getLast? with
  | none => true
  | some c => c == ';'

end BindGen.Udl

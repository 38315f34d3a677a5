import BindGen.Text.Blank

/-!
# Attributes and types

The list in square brackets in front of a definition or member: names, some with a value behind an
equals sign. Of several attributes of one name the last counts.

Types are compared as texts, so each is brought into a normal form first: one blank between two
words and after each comma, and none elsewhere.
-/

namespace BindGen.Udl

/-- Names with their values, in order. -/
abbrev Attributes := List (List Char × Option (List Char))

namespace Attributes

/-- The attribute that a part of the list writes, if the part is not blank. -/
def ofPart (part : List Char) : Option (List Char × Option (List Char)) :=
  let part := Text.trim part
  if part.isEmpty then none
  else
    let name := part.takeWhile (· != '=')
    match part.dropWhile (· != '=') with
    | _ :: value => some (Text.trim name, some (Text.trim value))
    | [] => some (Text.trim name, none)

/-- The attributes that the text between the brackets writes. -/
def ofText (s : List Char) : Attributes := (Text.cut (· == ',') s).filterMap ofPart

/-- The attributes of brackets that may be absent. Models `_parse_attributes`. -/
def ofText? : Option (List Char) → Attributes
  | some s => ofText s
  | none => []

/-- Whether a name is present. -/
def has (attributes : Attributes) (name : String) : Bool :=
  attributes.any (·.1 == name.toList)

/-- The value of the last attribute of a name. -/
def value? (attributes : Attributes) (name : String) : Option String :=
  match attributes.reverse.find? (·.1 == name.toList) with
  | some (_, value) => value.map String.ofList
  | none => none

end Attributes

/-- Square brackets at the start of a text: what stands between them and what follows them. Without
an opening bracket there are none; an opening bracket without a closing one is refused. -/
def takeBrackets : List Char → Option (Option (List Char) × List Char)
  | '[' :: rest =>
    match rest.dropWhile (· != ']') with
    | _ :: after => some (some (rest.takeWhile (· != ']')), after)
    | [] => none
  | s => some (none, s)

/-! ## Types -/

/-- The characters that separate the parts of a type by themselves. -/
def isMark (c : Char) : Bool := c == '<' || c == '>' || c == ','

/-- Whether the first character that is not blank is a mark. -/
def startsWithMark (s : List Char) : Bool := ((Text.trimLeft s).head?.map isMark).getD false

/-- The text without the blanks around marks; `marked` says whether a mark and blanks only stand in
front of it. -/
def tighten (marked : Bool) : List Char → List Char
  | [] => []
  | c :: rest =>
    if isMark c then c :: tighten true rest
    else if Text.isBlank c && (marked || startsWithMark rest) then tighten marked rest
    else c :: tighten false rest

/-- The text with a blank behind each comma. -/
def spaceCommas (s : List Char) : List Char := s.flatMap fun c => if c = ',' then [',', ' '] else [c]

/-- The text with one blank between two words and none around them. -/
def joinWords (s : List Char) : List Char := [' '].intercalate (Text.words s)

/-- The normal form of a type text. Models `_normalise_type`. -/
def normalType (s : List Char) : List Char := spaceCommas (tighten false (joinWords s))

end BindGen.Udl

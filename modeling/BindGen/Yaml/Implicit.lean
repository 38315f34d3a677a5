import BindGen.Yaml.Cursor

/-!
# Implicit tags of YAML

What a plain scalar without a tag is: a truth value, a number, a date, nothing, one of two special
keys, or else a text. Numbers may have underscores between their digits, and numbers to the base
sixty have colons.
-/

namespace BindGen.Yaml

/-- The tag of a kind of values. -/
def standardTag (name : String) : String := "tag:yaml.org,2002:" ++ name

/-- The words for truth values. -/
def boolWords : List (String × Bool) :=
  [("yes", true), ("no", false), ("true", true), ("false", false), ("on", true), ("off", false)]

/-- A word in lower case, with a capital, or in capitals. -/
def casings (word : String) : List (List Char) :=
  let s := word.toList
  let capital := match s with
    | [] => []
    | c :: rest => c.toUpper :: rest
  [s, capital, s.map Char.toUpper]

/-- Whether a text stands for a truth value. -/
def isBoolWord (s : List Char) : Bool := boolWords.any fun (w, _) => (casings w).contains s

/-- Whether a text stands for null. -/
def isNullWord (s : List Char) : Bool :=
  s == [] || s == ['~'] || (casings "null").contains s

/-- Whether a character is a sign. -/
def isSign (c : Char) : Bool := c == '+' || c == '-'

/-- A text without its sign. -/
def unsigned (s : List Char) : List Char :=
  match s with
  | c :: rest => if isSign c then rest else s
  | [] => []

/-- Whether a character is a digit or an underscore. -/
def isSpacedDigit (c : Char) : Bool := c.isDigit || c == '_'

/-- Whether a text starts with a digit and goes on with digits and underscores. -/
def isSpacedDigits (s : List Char) : Bool :=
  match s with
  | c :: rest => c.isDigit && rest.all isSpacedDigit
  | [] => false

/-- Whether a text is empty or an exponent with a sign. -/
def isExponentOrNothing (s : List Char) : Bool :=
  match s with
  | [] => true
  | e :: sign :: rest =>
    (e == 'e' || e == 'E') && isSign sign && !rest.isEmpty && rest.all Char.isDigit
  | _ => false

/-- Whether a text is a part of a number to the base sixty: one or two digits below sixty. -/
def isSixtieth (s : List Char) : Bool :=
  match s with
  | [a] => a.isDigit
  | [a, b] => '0' ≤ a && a ≤ '5' && b.isDigit
  | _ => false

/-- Splits a text at a character. -/
def splitOnChar (d : Char) : List Char → List (List Char)
  | [] => [[]]
  | c :: rest =>
    if c = d then [] :: splitOnChar d rest
    else
      match splitOnChar d rest with
      | first :: more => (c :: first) :: more
      | [] => [[c]]

/-- Whether a text is a number to the base sixty, of which the first part passes a test. -/
def isSexagesimal (first : List Char → Bool) (s : List Char) : Bool :=
  match splitOnChar ':' s with
  | head :: part :: more => first head && (part :: more).all isSixtieth
  | _ => false

/-- Whether a text stands for a floating number, with a point, in base sixty, infinite or none at
all. -/
def isFloat (s : List Char) : Bool :=
  let u := unsigned s
  let dotted (s : List Char) : Bool :=
    let whole := s.takeWhile isSpacedDigit
    match s.dropWhile isSpacedDigit with
    | '.' :: rest => isSpacedDigits whole && isExponentOrNothing (rest.dropWhile isSpacedDigit)
    | _ => false
  let leadingPoint (s : List Char) : Bool :=
    match s with
    | '.' :: d :: rest => d.isDigit && isExponentOrNothing (rest.dropWhile isSpacedDigit)
    | _ => false
  let sexagesimal (s : List Char) : Bool :=
    let whole := s.takeWhile (· != '.')
    match s.dropWhile (· != '.') with
    | '.' :: rest => isSexagesimal isSpacedDigits whole && rest.all isSpacedDigit
    | _ => false
  let infinity (s : List Char) : Bool :=
    match s with
    | '.' :: rest => (casings "inf").contains rest
    | _ => false
  dotted u || leadingPoint s || sexagesimal u || infinity u
    || s == ".nan".toList || s == ".NaN".toList || s == ".NAN".toList

/-- Whether a text stands for a whole number, in base two, eight, ten, sixteen or sixty. -/
def isInt (s : List Char) : Bool :=
  let fromOne (s : List Char) : Bool :=
    match s with
    | c :: rest => '1' ≤ c && c ≤ '9' && rest.all isSpacedDigit
    | [] => false
  match unsigned s with
  | [] => false
  | ['0'] => true
  | '0' :: 'b' :: rest => !rest.isEmpty && rest.all fun c => c == '0' || c == '1' || c == '_'
  | '0' :: 'x' :: rest => !rest.isEmpty && rest.all fun c => (hexValue? c).isSome || c == '_'
  | '0' :: rest => rest.all fun c => ('0' ≤ c && c ≤ '7') || c == '_'
  | u => fromOne u || isSexagesimal fromOne u

/-- What follows a run of digits whose length is within bounds. -/
def digitsWithin (least most : Nat) (s : List Char) : Option (List Char × List Char) :=
  let ds := (s.take most).takeWhile Char.isDigit
  if least ≤ ds.length then some (ds, s.drop ds.length) else none

/-- What follows a character that has to stand first. -/
def behind (c : Char) : List Char → Option (List Char)
  | d :: rest => if c = d then some rest else none
  | [] => none

/-- Whether a character is a blank inside a scalar. -/
def isInnerBlank (c : Char) : Bool := c == ' ' || c == '\t'

/-- The digits of a date and time. -/
structure TimestampText where
  year : List Char
  month : List Char
  day : List Char
  /-- hour, minute, second and the digits of the fraction, if there is a time -/
  time : Option (List Char × List Char × List Char × List Char)
  /-- sign, hours and minutes of the offset; universal time has no sign -/
  offset : Option (Option Char × List Char × List Char)

/-- The offset that a text is, with blanks in front of it. -/
def offsetText? (s : List Char) : Option (Option (Option Char × List Char × List Char)) :=
  match s.dropWhile isInnerBlank with
  | [] => if s.isEmpty then some none else none
  | ['Z'] => some (some (none, [], []))
  | sign :: rest =>
    if isSign sign then do
      let (hours, rest) ← digitsWithin 1 2 rest
      match rest with
      | [] => return some (some sign, hours, [])
      | rest =>
        let (minutes, rest) ← digitsWithin 2 2 (← behind ':' rest)
        if rest.isEmpty then return some (some sign, hours, minutes) else none
    else none

/-- What separates a date from a time: a letter, or blanks. -/
def behindDate (s : List Char) : Option (List Char) :=
  match s with
  | c :: rest =>
    if c = 'T' ∨ c = 't' then some rest
    else if isInnerBlank c then some (rest.dropWhile isInnerBlank)
    else none
  | [] => none

/-- A text without the line feed at its end, if it has one. -/
def withoutLineFeed (s : List Char) : List Char := if s.getLast? = some '\n' then s.dropLast else s

/-- The digits of the date, or of the date and time, that a text is; a line feed may stand at its
end. -/
def timestampText? (s : List Char) : Option TimestampText := do
  let (year, s) ← digitsWithin 4 4 (withoutLineFeed s)
  let (month, s) ← digitsWithin 1 2 (← behind '-' s)
  let (day, s) ← digitsWithin 1 2 (← behind '-' s)
  if s.isEmpty then return ⟨year, month, day, none, none⟩
  let (hour, s) ← digitsWithin 1 2 (← behindDate s)
  let (minute, s) ← digitsWithin 2 2 (← behind ':' s)
  let (second, s) ← digitsWithin 2 2 (← behind ':' s)
  let (fraction, s) := match s with
    | '.' :: rest => (rest.takeWhile Char.isDigit, rest.dropWhile Char.isDigit)
    | s => ([], s)
  let offset ← offsetText? s
  return ⟨year, month, day, some (hour, minute, second, fraction), offset⟩

/-- Whether a plain scalar is a date: one without a time has two digits for month and day. -/
def isTimestamp (s : List Char) : Bool :=
  match timestampText? s with
  | some t => t.time.isSome || (t.month.length == 2 && t.day.length == 2)
  | none => false

/-- The tag of a plain scalar without one. A line feed at the end of more than that does not
count. -/
def implicitTag (text : List Char) : String :=
  let s := if text == ['\n'] then text else withoutLineFeed text
  if isBoolWord s then standardTag "bool"
  else if isFloat s then standardTag "float"
  else if isInt s then standardTag "int"
  else if s == "<<".toList then standardTag "merge"
  else if isNullWord s then standardTag "null"
  else if isTimestamp text then standardTag "timestamp"
  else if s == ['='] then standardTag "value"
  else standardTag "str"

end BindGen.Yaml

import BindGen.Toml.Lexeme

/-!
# Numbers, dates and times of TOML

The scalars without quotes. Digits may have single underscores between them; a number is a float if
it has a fraction or an exponent.
-/

namespace BindGen.Toml

/-- The number that digits write in a base up to sixteen. -/
def digitsIn (base : Nat) (ds : List Char) : Nat :=
  ds.foldl (fun n d => n * base + (hexValue? d).getD 0) 0

/-- Further digits of a class, each with an underscore in front or not. -/
def moreDigits (p : Char → Bool) : List Char → List Char × List Char
  | '_' :: d :: rest =>
    if p d then let (ds, after) := moreDigits p rest; (d :: ds, after) else ([], '_' :: d :: rest)
  | d :: rest =>
    if p d then let (ds, after) := moreDigits p rest; (d :: ds, after) else ([], d :: rest)
  | [] => ([], [])

/-- A digit of a class with those that follow it. -/
def digits (p : Char → Bool) (s : List Char) : Option (List Char × List Char) :=
  match s with
  | d :: rest =>
    if p d then let (ds, after) := moreDigits p rest; some (d :: ds, after) else none
  | [] => none

/-- The bases other than ten: their letters and digits. -/
def bases : List (Char × Nat × (Char → Bool)) :=
  [('x', 16, fun c => (hexValue? c).isSome), ('b', 2, fun c => c == '0' || c == '1'),
    ('o', 8, fun c => '0' ≤ c && c ≤ '7')]

/-- A natural in a base other than ten. -/
def basedNatural (s : List Char) : Option (Nat × List Char) :=
  match s with
  | '0' :: letter :: rest => do
    let (base, p) ← bases.lookup letter
    let (ds, after) ← digits p rest
    return (digitsIn base ds, after)
  | _ => none

/-- The digits in front of the point: a zero by itself, or digits of which the first is not zero. -/
def wholeDigits (s : List Char) : Option (List Char × List Char) :=
  match s with
  | '0' :: rest => some (['0'], rest)
  | s => digits Char.isDigit s

/-- The digits of a fraction, if one follows. -/
def fractionDigits (s : List Char) : List Char × List Char :=
  match s with
  | '.' :: rest => (digits Char.isDigit rest).getD ([], s)
  | s => ([], s)

/-- The exponent, if one follows. -/
def exponent? (s : List Char) : Option (Int × List Char) :=
  match s with
  | c :: rest =>
    if c = 'e' ∨ c = 'E' then
      let (negative, rest) := Text.takeSign rest
      (digits Char.isDigit rest).map fun (ds, after) =>
        let n : Int := digitsIn 10 ds
        (if negative then -n else n, after)
    else none
  | [] => none

/-- A decimal number. -/
def decimal? (s : List Char) : Option (Except ReadProblem Scalar × List Char) := do
  let (negative, rest) := Text.takeSign s
  let (whole, rest) ← wholeDigits rest
  let (fraction, rest) := fractionDigits rest
  let float (scale : Int) : Except ReadProblem Scalar :=
    .ok (.float (Double.ofDecimal negative (digitsIn 10 (whole ++ fraction)) scale))
  match exponent? rest with
  | some (e, after) => return (float (e - fraction.length), after)
  | none =>
    if !fraction.isEmpty then return (float (-fraction.length), rest)
    else if whole.length > Text.digitLimit then
      return (.error (.fault (.hugeInteger whole.length)), rest)
    else
      let n : Int := digitsIn 10 whole
      return (.ok (.int (if negative then -n else n)), rest)

/-- The words for infinities and for no number. -/
def wordFloats : List (List Char × Double) :=
  [("inf".toList, .infinite false), ("nan".toList, .nan), ("-inf".toList, .infinite true),
    ("+inf".toList, .infinite false), ("-nan".toList, .nan), ("+nan".toList, .nan)]

/-- A number of fixed width within bounds. -/
def fixed (width least greatest : Nat) (s : List Char) : Option (Nat × List Char) :=
  let ds := s.take width
  let n := digitsIn 10 ds
  if ds.length = width ∧ ds.all Char.isDigit ∧ least ≤ n ∧ n ≤ greatest then
    some (n, s.drop width)
  else none

/-- What follows a character that has to stand first. -/
def expect (c : Char) : List Char → Option (List Char)
  | d :: rest => if c = d then some rest else none
  | [] => none

/-- The microseconds that the digits of a fraction write; those beyond the sixth do not count. -/
def microseconds (ds : List Char) : Nat :=
  digitsIn 10 ((ds ++ List.replicate 6 '0').take 6)

/-- A time of day. -/
def clock? (s : List Char) : Option (Clock × List Char) := do
  let (hour, s) ← fixed 2 0 23 s
  let (minute, s) ← fixed 2 0 59 (← expect ':' s)
  let (second, s) ← fixed 2 0 59 (← expect ':' s)
  match s with
  | '.' :: rest =>
    let ds := rest.takeWhile Char.isDigit
    if ds.isEmpty then return (⟨hour, minute, second, 0⟩, s)
    else return (⟨hour, minute, second, microseconds ds⟩, rest.dropWhile Char.isDigit)
  | s => return (⟨hour, minute, second, 0⟩, s)

/-- The offset of a time from universal time in minutes, if one follows. -/
def offset? (s : List Char) : Option (Int × List Char) := do
  match s with
  | 'Z' :: rest | 'z' :: rest => return (0, rest)
  | c :: rest =>
    if c = '+' ∨ c = '-' then
      let (hour, s) ← fixed 2 0 23 rest
      let (minute, s) ← fixed 2 0 59 (← expect ':' s)
      let n : Int := hour * 60 + minute
      return (if c = '-' then -n else n, s)
    else none
  | [] => none

/-- A date, which the calendar need not have. -/
def date? (s : List Char) : Option (Date × List Char) := do
  let (year, s) ← fixed 4 0 9999 s
  let (month, s) ← fixed 2 1 12 (← expect '-' s)
  let (day, s) ← fixed 2 1 31 (← expect '-' s)
  return (⟨year, month, day⟩, s)

/-- The time that may follow a date behind a `T` or a blank. -/
def clockBehindDate? (s : List Char) : Option (Clock × List Char) :=
  match s with
  | c :: rest => if c = 'T' ∨ c = 't' ∨ c = ' ' then clock? rest else none
  | [] => none

/-- A date, a time, or both. -/
def moment? (s : List Char) : Option (Except ReadProblem Scalar × List Char) :=
  match date? s with
  | some (day, rest) =>
    let (moment, after) :=
      match clockBehindDate? rest with
      | some (clock, rest) =>
        match offset? rest with
        | some (offset, after) => (Moment.dateTime day clock (some offset), after)
        | none => (Moment.dateTime day clock none, rest)
      | none => (Moment.date day, rest)
    some (if day.isValid then .ok (.moment moment) else malformed, after)
  | none => (clock? s).map fun (clock, after) => (.ok (.moment (.time clock)), after)

/-- The scalar without quotes that starts here. -/
def bareScalar (s : List Char) : Except ReadProblem (Scalar × List Char) :=
  match moment? s with
  | some (x, after) => x.map (·, after)
  | none =>
    match basedNatural s with
    | some (n, after) => .ok (.int n, after)
    | none =>
      match decimal? s with
      | some (x, after) => x.map (·, after)
      | none =>
        match wordFloats.findSome? fun (w, x) => (Text.afterPrefix? w s).map (x, ·) with
        | some (x, after) => .ok (.float x, after)
        | none => malformed

end BindGen.Toml

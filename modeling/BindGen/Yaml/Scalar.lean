import BindGen.Number.Decimal
import BindGen.Text.Case
import BindGen.Yaml.Implicit

/-!
# Scalars of YAML

What a scalar is worth under its tag. A tag that a document gives need not fit the text; then there
is no value, and the fault says why. Numbers are read more widely than a plain scalar is taken for
one: in the digits of any script, with blanks around, and with a further sign.
-/

namespace BindGen.Yaml

/-- The failure of a text that a tag does not fit. -/
def unfit {α : Type} (reason : String) : Except ReadProblem α := .error (.fault (.invalid reason))

/-- The truth value of a word. -/
def boolOf (s : List Char) : Except ReadProblem Scalar :=
  let word := String.ofList (Text.lower s)
  match boolWords.lookup word with
  | some b => .ok (.bool b)
  | none => .error (.fault (.missingKey word))

/-- Whether a number starts with a minus sign, and its text without underscores and sign. Something
has to be left but underscores. -/
def signAndRest (s : List Char) : Except ReadProblem (Bool × List Char) :=
  match s.filter (· != '_') with
  | [] => .error (.fault .emptyText)
  | s => .ok (Text.takeSign s)

/-- The greatest number of characters of a quoted text in the message about an integer. -/
def quotedLimit : Nat := 200

/-- The integer that a text writes in a base. -/
def integerIn (base : Nat) (s : List Char) : Except ReadProblem Int :=
  match Text.integerIn base s with
  | .ok n => .ok n
  | .error (.tooLong digits) => .error (.fault (.hugeInteger digits))
  | .error .notNumeral =>
    unfit (s!"invalid literal for int() with base {base}: "
      ++ String.ofList ((Text.quoted s).take quotedLimit))

/-- The number to the base sixty that parts write, the last one counting once. -/
def sexagesimal (parts : List Int) : Int := parts.foldl (fun n part => n * 60 + part) 0

/-- The integer that a text writes. -/
def intOf (s : List Char) : Except ReadProblem Scalar := do
  let (negative, u) ← signAndRest s
  let n ←
    match u with
    | [] => throw (.fault .emptyText)
    | ['0'] => pure 0
    | '0' :: 'b' :: digits => integerIn 2 digits
    | '0' :: 'x' :: digits => integerIn 16 digits
    | '0' :: _ => integerIn 8 u
    | _ =>
      if u.contains ':' then do pure (sexagesimal (← (splitOnChar ':' u).mapM (integerIn 10)))
      else integerIn 10 u
  return .int (if negative then -n else n)

/-- The decimal number that a text writes. -/
def decimalOf (s : List Char) : Except ReadProblem Double :=
  match Double.ofText? s with
  | some x => .ok x
  | none => unfit ("could not convert string to float: " ++ String.ofList (Text.quoted s))

/-- The number to the base sixty that parts write, rounded at every step from the last part on. -/
def sexagesimalDouble (parts : List Double) : Except ReadProblem Double := do
  let step (state : Double × Int) (part : Double) : Except ReadProblem (Double × Int) :=
    match Double.ofInt state.2 with
    | .infinite _ => .error (.fault .oversized)
    | weight => .ok (state.1.add (part.multiply weight), state.2 * 60)
  return (← parts.reverse.foldlM step (Double.zero false, 1)).1

/-- The float that a text writes. -/
def floatOf (s : List Char) : Except ReadProblem Scalar := do
  let (negative, u) ← signAndRest (Text.lower s)
  let x ←
    if u == ".inf".toList then pure (Double.infinite false)
    else if u == ".nan".toList then pure .nan
    else if u.contains ':' then do sexagesimalDouble (← (splitOnChar ':' u).mapM decimalOf)
    else decimalOf u
  return .float (if negative then x.negate else x)

/-- The natural that digits write. -/
def natural (ds : List Char) : Nat := Text.ofDigits 10 (ds.map fun d => d.toNat - 48)

/-- Why the calendar does not have a date. -/
def dateFault? (d : Date) : Option String :=
  if d.year = 0 then some "year 0 is out of range"
  else if d.month = 0 ∨ 12 < d.month then some "month must be in 1..12"
  else if !d.isValid then some "day is out of range for month"
  else none

/-- Why there is no such time of day. -/
def clockFault? (c : Clock) : Option String :=
  if 24 ≤ c.hour then some "hour must be in 0..23"
  else if 60 ≤ c.minute then some "minute must be in 0..59"
  else if 60 ≤ c.second then some "second must be in 0..59"
  else none

/-- The minutes of an offset. -/
def offsetOf (o : Option Char × List Char × List Char) : Int :=
  let (sign, hours, minutes) := o
  let n : Int := natural hours * 60 + natural minutes
  if sign = some '-' then -n else n

/-- The date, or the date and time, that a text writes. -/
def timestampOf (s : List Char) : Except ReadProblem Scalar := do
  match timestampText? s with
  | none => .error (.fault (.noOperation "NoneType" "groupdict"))
  | some t =>
    let day : Date := ⟨natural t.year, natural t.month, natural t.day⟩
    match t.time with
    | none =>
      if let some reason := dateFault? day then unfit reason
      return .moment (.date day)
    | some (hour, minute, second, fraction) =>
      let micro := natural ((fraction ++ List.replicate 6 '0').take 6)
      let clock : Clock := ⟨natural hour, natural minute, natural second, micro⟩
      let offset := t.offset.map offsetOf
      if offset.any fun n => n.natAbs ≥ 1440 then
        unfit ("offset must be a timedelta strictly between -timedelta(hours=24) and "
          ++ "timedelta(hours=24), not " ++ Moment.quotedDelta (offset.getD 0) ++ ".")
      if let some reason := dateFault? day then unfit reason
      if let some reason := clockFault? clock then unfit reason
      return .moment (.dateTime day clock offset)

/-- The value of a letter of the base sixty-four. -/
def base64Value? (c : Char) : Option Nat :=
  if 'A' ≤ c ∧ c ≤ 'Z' then some (c.toNat - 65)
  else if 'a' ≤ c ∧ c ≤ 'z' then some (c.toNat - 71)
  else if c.isDigit then some (c.toNat + 4)
  else if c = '+' then some 62
  else if c = '/' then some 63
  else none

/-- The bytes that letters of the base sixty-four write, after a number of letters of the current
group of four, whose bits are given, and after a number of padding signs. Other characters do not
count; the padding that fills a group ends the bytes. -/
def base64From (letters bits pads : Nat) : List Char → Except ReadProblem Bytes
  | [] => if letters = 0 then .ok [] else malformed
  | c :: rest =>
    if c = '=' then
      if 2 ≤ letters then
        if 4 ≤ letters + (pads + 1) then .ok [] else base64From letters bits (pads + 1) rest
      else base64From letters bits pads rest
    else
      match base64Value? c with
      | none => base64From letters bits pads rest
      | some n =>
        match letters with
        | 0 => base64From 1 n 0 rest
        | 1 => do return (bits * 4 + n / 16).toUInt8 :: (← base64From 2 (n % 16) 0 rest)
        | 2 => do return (bits * 16 + n / 4).toUInt8 :: (← base64From 3 (n % 4) 0 rest)
        | _ => do return (bits * 64 + n).toUInt8 :: (← base64From 0 0 0 rest)

/-- The bytes that a text writes. -/
def binaryOf (s : List Char) : Except ReadProblem Scalar :=
  if s.any fun c => 128 ≤ c.toNat then malformed
  else do return .bytes (← base64From 0 0 0 s)

end BindGen.Yaml

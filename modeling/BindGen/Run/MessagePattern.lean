import BindGen.Number.Decimal
import BindGen.Text.Numeral
import BindGen.Value.Fault

/-!
# Patterns of messages

The text of a message may have places that start with a percent sign. Each takes the next argument,
or the one of a name if the only argument is a table, and says in which form it is written, how wide
and how precisely. A message without arguments is written as it is.
-/

namespace BindGen.MessagePattern

/-- The width or the precision of a place: a number, or one that is taken from the arguments. -/
inductive Extent where
  | fixed (n : Nat)
  | argument

/-- A place of a pattern. -/
structure Place where
  key : Option (List Char)
  /-- the marks for sides, signs, prefixes and zeros -/
  flags : List Char
  width : Option Extent
  precision : Option Extent
  form : Char

/-- The arguments that are left, and the table that names refer to. -/
structure Supply where
  table : Option (Table Value)
  pending : List Value

private def invalid {α : Type} (reason : String) : Except Fault α := .error (.invalid reason)

/-- Takes a name behind its opening bracket; brackets inside it are balanced. -/
def takeKey : Nat → List Char → Except Fault (List Char × List Char)
  | _, [] => invalid "incomplete format key"
  | 0, ')' :: rest => .ok ([], rest)
  | depth, c :: rest => do
    let depth := if c = '(' then depth + 1 else if c = ')' then depth - 1 else depth
    let (key, behind) ← takeKey depth rest
    return (c :: key, behind)

/-- Takes a width or a precision. -/
def takeExtent : List Char → Option Extent × List Char
  | '*' :: rest => (some .argument, rest)
  | s =>
    let (ds, rest) := s.span Char.isDigit
    (if ds.isEmpty then none else some (.fixed (Text.ofDigits 10 (ds.filterMap hexValue?))), rest)

/-- Takes a place behind its percent sign. A letter for the size of numbers does not count. -/
def takePlace (s : List Char) : Except Fault (Place × List Char) := do
  let (key, s) ← match s with
    | '(' :: rest => do
      let (key, behind) ← takeKey 0 rest
      pure (some key, behind)
    | s => pure (none, s)
  let (flags, s) := s.span ['-', '+', ' ', '#', '0'].contains
  let (width, s) := takeExtent s
  let (precision, s) := match s with
    | '.' :: rest =>
      let (precision, rest) := takeExtent rest
      (some (precision.getD (.fixed 0)), rest)
    | s => (none, s)
  let s := match s with
    | c :: rest => if ['h', 'l', 'L'].contains c then rest else s
    | [] => []
  match s with
  | form :: rest => return (⟨key, flags, width, precision, form⟩, rest)
  | [] => invalid "incomplete format"

namespace Supply

/-- The arguments of a message. -/
def ofArguments (arguments : List Value) : Supply :=
  match arguments with
  | [.table (e :: rest)] => ⟨some (e :: rest), arguments⟩
  | _ => ⟨none, arguments⟩

/-- The next argument. -/
def next (s : Supply) : Except Fault (Value × Supply) :=
  match s.pending with
  | v :: rest => .ok (v, { s with pending := rest })
  | [] => .error .missingArgument

/-- The supply for a place: its name makes one argument the next. -/
def named (s : Supply) (key : Option (List Char)) : Except Fault Supply :=
  match key, s.table with
  | none, _ => .ok s
  | some _, none => .error .unnamedArguments
  | some key, some t =>
    match Table.find? t (.text (String.ofList key)) with
    | some v => .ok { s with pending := [v] }
    | none => .error (.missingKey (String.ofList key))

/-- An extent as a number. -/
def extent (s : Supply) : Option Extent → Except Fault (Option Int × Supply)
  | none => .ok (none, s)
  | some (.fixed n) => do return (some (← bounded n), s)
  | some .argument => do
    match ← s.next with
    | (.int n, rest) => return (some (← bounded n), rest)
    | (.bool b, rest) => return (some (if b then 1 else 0), rest)
    | _ => throw .starNeedsInteger
where
  bounded (n : Int) : Except Fault Int :=
    if n.natAbs ≤ Text.greatestWidth then .ok n else .error .exhausted

end Supply

/-- The number of a base with its prefix. -/
def inBase (base : Nat) (n : Int) : List Char × List Char :=
  let ds := Nat.toDigits base n.natAbs
  match base with
  | 8 => (['0', 'o'], ds)
  | 16 => (['0', 'x'], ds)
  | _ => ([], ds)

/-- The bases of the forms of integers. -/
def baseOf? (form : Char) : Option Nat :=
  match form with
  | 'd' | 'i' | 'u' => some 10
  | 'o' => some 8
  | 'x' | 'X' => some 16
  | _ => none

/-- The forms of rounded numbers. -/
def roundedOf? (form : Char) : Option Double.RoundedForm :=
  match form.toLower with
  | 'f' => some .fixed
  | 'e' => some .scientific
  | 'g' => some .general
  | _ => none

/-- The integer that is written for a value; only decimal forms round. -/
def integerOf (form : Char) (v : Value) : Except Fault Int :=
  match v with
  | .int n => .ok n
  | .bool b => .ok (if b then 1 else 0)
  | .scalar (.float x) =>
    if baseOf? form ≠ some 10 then .error (.unfitArgument v.typeName)
    else
      match x, x.toRatio? with
      | .nan, _ => invalid "cannot convert float NaN to integer"
      | _, some (num, den) => .ok (num.tdiv den)
      | _, none => .error .oversized
  | v => .error (.unfitArgument v.typeName)

/-- The number that is written for a value. -/
def numberOf (v : Value) : Except Fault Double :=
  match v with
  | .scalar (.float x) => .ok x
  | .bool b => .ok (Double.ofInt (if b then 1 else 0))
  | .int n =>
    match Double.ofInt n with
    | .infinite _ => .error .oversized
    | x => .ok x
  | v => .error (.unfitArgument v.typeName)

/-- The character that is written for a value. -/
def characterOf (v : Value) : Except Fault (List Char) :=
  let ofCode (n : Int) : Except Fault (List Char) :=
    if 0 ≤ n ∧ n < 0x110000 then .ok [Char.ofNat n.toNat] else .error .oversized
  match v with
  | .int n => ofCode n
  | .bool b => ofCode (if b then 1 else 0)
  | .text s => if s.length = 1 then .ok s.toList else .error (.unfitArgument v.typeName)
  | .scalar (.broken t) =>
    if t.points.length = 1 then .ok v.display.toList else .error (.unfitArgument v.typeName)
  | v => .error (.unfitArgument v.typeName)

/-- The parts of a text that is laid out: a sign, a prefix and the rest. -/
structure Written where
  sign : List Char
  base : List Char
  body : List Char
  /-- whether zeros may go between the prefix and the rest -/
  numeric : Bool

/-- A sign in front of a number, where the flags may ask for one. -/
def signFor (flags : List Char) (negative : Bool) : List Char :=
  if negative then ['-']
  else if flags.contains '+' then ['+']
  else if flags.contains ' ' then [' ']
  else []

/-- A value in the form of a place. -/
def written (p : Place) (precision : Option Nat) (v : Value) : Except Fault Written := do
  let plain (s : List Char) : Written := ⟨[], [], s, false⟩
  let cut (s : List Char) : Written := plain (match precision with
    | some n => s.take n
    | none => s)
  match p.form, baseOf? p.form, roundedOf? p.form with
  | 's', _, _ => return cut (← v.shown).toList
  | 'r', _, _ => let _ ← v.shown; return cut v.quoted.toList
  | 'a', _, _ => let _ ← v.shown; return cut (Text.inAscii v.quoted.toList)
  | 'c', _, _ => return plain (← characterOf v)
  | _, some base, _ =>
    let n ← integerOf p.form v
    if base = 10 then let _ ← (Value.int n).shown
    let (start, ds) := inBase base n
    let ds := Double.padLeft (precision.getD 0) ds
    let start := if p.flags.contains '#' then start else []
    let raise (s : List Char) : List Char := if p.form = 'X' then s.map Char.toUpper else s
    return ⟨signFor p.flags (n < 0), raise start, raise ds, true⟩
  | _, none, some form =>
    let x ← numberOf v
    let text := x.rounded form (precision.getD 6) (p.flags.contains '#')
    let body := if text.head? = some '-' then text.drop 1 else text
    let body := if p.form.isUpper then body.map Char.toUpper else body
    return ⟨signFor p.flags (text.head? = some '-'), [], body, true⟩
  | _, none, none => invalid s!"unsupported format character '{p.form}'"

/-- The parts of a text, padded to a width on the side that the flags say. -/
def laid (flags : List Char) (left : Bool) (width : Nat) (w : Written) : List Char :=
  let missing := width - (w.sign.length + w.base.length + w.body.length)
  let front := w.sign ++ w.base
  if left then front ++ w.body ++ List.replicate missing ' '
  else if flags.contains '0' && w.numeric then front ++ List.replicate missing '0' ++ w.body
  else List.replicate missing ' ' ++ front ++ w.body

/-- The text of a place, and the arguments that are left. A negative width pads behind. -/
def placeText (p : Place) (s : Supply) : Except Fault (List Char × Supply) := do
  let s ← s.named p.key
  let (width, s) ← s.extent p.width
  let (precision, s) ← s.extent p.precision
  let (v, s) ← s.next
  let w ← written p (precision.map Int.toNat) v
  let left := p.flags.contains '-' || width.any (· < 0)
  return (laid p.flags left (width.getD 0).natAbs w, s)

/-- Fills a pattern. The fuel bounds the length. -/
def fillFrom : Nat → Supply → List Char → Except Fault (List Char)
  | 0, _, _ => .ok []
  | _ + 1, s, [] => if s.table.isNone && !s.pending.isEmpty then .error .unusedArguments else .ok []
  | fuel + 1, s, '%' :: '%' :: rest => do return '%' :: (← fillFrom fuel s rest)
  | fuel + 1, s, '%' :: rest => do
    let (p, behind) ← takePlace rest
    let (text, s) ← placeText p s
    return text ++ (← fillFrom fuel s behind)
  | fuel + 1, s, c :: rest => do return c :: (← fillFrom fuel s rest)

/-- The message with its arguments in place. -/
def fill (pattern : String) (arguments : List Value) : Except Fault String :=
  if arguments.isEmpty then .ok pattern
  else
    let cs := pattern.toList
    (fillFrom (cs.length + 1) (Supply.ofArguments arguments) cs).map String.ofList

end BindGen.MessagePattern

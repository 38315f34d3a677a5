import BindGen.Text.Numeral
import BindGen.Value.Display
import BindGen.Value.Sort

/-!
# Faults

What goes wrong when a value does not have the shape that an operation needs. Every fault names its
cause; `Fault.message` is its wording and `Fault.kind` the sort of fault it is.
-/

namespace BindGen

/-- A value without the shape that an operation needs. Kinds of values are given by name. -/
inductive Fault where
  | missingKey (key : String)
  | notIndexable (kind : String)
  | textIndexed
  | sequenceIndexed (kind : String)
  | notIterable (kind : String)
  | notPath (kind : String)
  | noOperation (kind operation : String)
  | notHashable (kind : String)
  | notOrdered (first second : String)
  | notText (kind : String)
  | missingArgument
  | unusedArguments
  | unnamedArguments
  | starNeedsInteger
  | unfitArgument (kind : String)
  | hugeInteger (digits : Nat)
  | longInteger
  | strayBrace
  | strayEnd
  | unclosedSlot
  | nestedSlot
  | unfilledPlace (place : Nat)
  | emptyText
  | oversized
  | exhausted
  | endless
  | invalid (reason : String)
deriving DecidableEq

/-- The sorts of faults: a key that is absent, a place that nothing stands at, a value of a wrong
kind, an operation that a kind of value lacks, a number that is too large, a text that is too long,
parts without an end, and a value that is of a right kind but cannot be used. -/
inductive Fault.Kind where
  | key
  | place
  | type
  | operation
  | size
  | memory
  | depth
  | content
deriving DecidableEq

namespace Fault

/-- The kind of error that a fault is. -/
def kind : Fault → Kind
  | missingKey _ => .key
  | unfilledPlace _ | emptyText => .place
  | oversized => .size
  | exhausted => .memory
  | endless => .depth
  | noOperation .. => .operation
  | hugeInteger _ | longInteger | strayBrace | strayEnd | unclosedSlot | nestedSlot
  | invalid _ => .content
  | _ => .type

/-- The wording of a fault. -/
def message : Fault → String
  | missingKey key => String.ofList (Text.quoted key.toList)
  | notIndexable kind => s!"'{kind}' object is not subscriptable"
  | textIndexed => "string indices must be integers, not 'str'"
  | sequenceIndexed kind => s!"{kind} indices must be integers or slices, not str"
  | notIterable kind => s!"'{kind}' object is not iterable"
  | notPath kind => s!"expected str, bytes or os.PathLike object, not {kind}"
  | noOperation kind operation => s!"'{kind}' object has no attribute '{operation}'"
  | notHashable kind => s!"unhashable type: '{kind}'"
  | notOrdered first second =>
    s!"'<' not supported between instances of '{first}' and '{second}'"
  | notText kind => s!"argument of type '{kind}' is not iterable"
  | missingArgument => "not enough arguments for format string"
  | unusedArguments => "not all arguments converted during string formatting"
  | unnamedArguments => "format requires a mapping"
  | starNeedsInteger => "* wants int"
  | unfitArgument kind => s!"a real number is required, not {kind}"
  | hugeInteger digits =>
    s!"Exceeds the limit (4300 digits) for integer string conversion: value has {digits} digits; "
      ++ "use sys.set_int_max_str_digits() to increase the limit"
  | longInteger =>
    "Exceeds the limit (4300 digits) for integer string conversion; "
      ++ "use sys.set_int_max_str_digits() to increase the limit"
  | strayBrace => "Single '\x7b' encountered in format string"
  | strayEnd => "Single '\x7d' encountered in format string"
  | unclosedSlot => "expected '\x7d' before end of string"
  | nestedSlot => "unexpected '\x7b' in field name"
  | unfilledPlace place => s!"Replacement index {place} out of range for positional args tuple"
  | emptyText => "string index out of range"
  | oversized => "the number is too large"
  | exhausted => "the text does not fit into memory"
  | endless => "the parts are nested too deep"
  | invalid reason => reason

end Fault

/-- Why a text holds no value: it breaks the rules of its format, or what it writes has no value. -/
inductive ReadProblem where
  | malformed
  | fault (f : Fault)
deriving DecidableEq

namespace Scalar

/-- The least integer that is too long to be shown. -/
def leastLongInteger : Nat := Nat.pow 10 Text.digitLimit

/-- Whether a scalar can be shown. -/
def isShowable : Scalar → Bool
  | int n => n.natAbs < leastLongInteger
  | _ => true

end Scalar

namespace Value

mutual

/-- Whether a value can be shown. -/
def isShowable : Value → Bool
  | scalar s => s.isShowable
  | list items => areShowable items
  | pair a b => isShowable a && isShowable b
  | set members => members.all Scalar.isShowable
  | table entries => areEntriesShowable entries
  | link .. => true

/-- Whether every item of a list can be shown. -/
def areShowable : List Value → Bool
  | [] => true
  | v :: rest => isShowable v && areShowable rest

/-- Whether every key and every value of a table can be shown. -/
def areEntriesShowable : List (Scalar × Value) → Bool
  | [] => true
  | (k, v) :: rest => k.isShowable && isShowable v && areEntriesShowable rest

end

/-- The text of a value. An integer of too many digits has none. -/
def shown (v : Value) : Except Fault String :=
  if v.isShowable then .ok v.display else .error .longInteger

/-- The part of a value under a name. -/
def part (v : Value) (name : String) : Except Fault Value :=
  match v with
  | table entries =>
    match Table.find? entries name with
    | some w => .ok w
    | none => .error (.missingKey name)
  | text _ | scalar (.broken _) => .error .textIndexed
  | list _ => .error (.sequenceIndexed "list")
  | pair .. => .error (.sequenceIndexed "tuple")
  | v => .error (.notIndexable v.typeName)

/-- The values that a value goes through one after the other: the items of a list, the keys of a
table, the characters of a text. -/
def elements (v : Value) : Except Fault (List Value) :=
  match v with
  | list items => .ok items
  | pair a b => .ok [a, b]
  | set members => .ok (members.map scalar)
  | table entries => .ok (entries.map fun (k, _) => scalar k)
  | text s => .ok (s.toList.map fun c => text (String.singleton c))
  | scalar (.broken t) => .ok (t.points.map fun n => (LooseText.ofPoints [n]).value)
  | v => .error (.notIterable v.typeName)

/-- A table's value under a name, or null; only tables have this operation. -/
def optionalPart (v : Value) (name : String) : Except Fault Value :=
  match v with
  | table entries => .ok ((Table.find? entries name).getD null)
  | v => .error (.noOperation v.typeName "get")

/-- The scalar that serves as a table key. -/
def asKey (v : Value) : Except Fault Scalar :=
  match v with
  | scalar s => .ok s
  | v => .error (.notHashable v.typeName)

/-- The text that a value has to be, for the named operation. -/
def asText (v : Value) (operation : String) : Except Fault LooseText :=
  match v with
  | text s => .ok s
  | scalar (.broken t) => .ok (.broken t)
  | v => .error (.noOperation v.typeName operation)

end Value

namespace Scalar

/-- Whether all scalars can be compared with each other. -/
def allOrdered : List Scalar → Bool
  | [] => true
  | a :: rest => rest.all (fun b => (a.order? b).isSome) && allOrdered rest

end Scalar

/-- The list in the order of its keys; keys that tie keep their places. Several keys that cannot be
compared with each other are a fault. -/
def sortByKey {α : Type} (key : α → Scalar) (items : List α) : Except Fault (List α) :=
  if Scalar.allOrdered (items.map key) then .ok (sortOn key items)
  else
    match items.map key with
    | a :: b :: _ => .error (.notOrdered (Value.scalar b).typeName (Value.scalar a).typeName)
    | _ => .ok items

end BindGen

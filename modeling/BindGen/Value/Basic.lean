import BindGen.Value.Table

/-!
# Values

The data that settings files, metadata payloads and package listings are made of: scalars, lists,
pairs, sets and tables. A settings file may let a list, set or table stand in several places; then
each of them holds a link. `Value.same` compares two values by content: numbers by their value,
tables without regard to the order of their keys.
-/

namespace BindGen

/-- The kinds of values with parts that several places can share. -/
inductive PartKind where
  | list
  | set
  | table
deriving DecidableEq

/-- A piece of structured data. -/
inductive Value where
  | scalar (s : Scalar)
  | list (items : List Value)
  | pair (first second : Value)
  | set (members : List Scalar)
  | table (entries : List (Scalar × Value))
  /-- what several places share, kept elsewhere under its label -/
  | link (label : Nat) (kind : PartKind)

namespace Value

/-- The null value. -/
@[match_pattern] abbrev null : Value := scalar .null

/-- A truth value. -/
@[match_pattern] abbrev bool (b : Bool) : Value := scalar (.bool b)

/-- A whole number. -/
@[match_pattern] abbrev int (n : Int) : Value := scalar (.int n)

/-- A floating number. -/
@[match_pattern] abbrev float (x : Double) : Value := scalar (.float x)

/-- A text. -/
@[match_pattern] abbrev text (s : String) : Value := scalar (.text s)

/-- A value that stands where any will do. -/
instance : Inhabited Value := ⟨null⟩

/-- A text is a value. -/
instance : Coe String Value := ⟨text⟩

/-- A text, or null for none. -/
def ofText? : Option String → Value
  | some s => text s
  | none => null

/-- The scalar that a value is, if it has no parts. -/
def scalar? : Value → Option Scalar
  | scalar s => some s
  | _ => none

/-- The text that a value is. -/
def text? : Value → Option String
  | text s => some s
  | _ => none

/-- The entries of a table. -/
def table? : Value → Option (Table Value)
  | table entries => some entries
  | _ => none

/-- Whether a value is null. -/
def isNull : Value → Bool
  | null => true
  | _ => false

/-- Whether a value counts as true: a scalar that does, or anything with parts. -/
def isTruthy : Value → Bool
  | scalar s => s.isTruthy
  | list items => !items.isEmpty
  | pair _ _ => true
  | set members => !members.isEmpty
  | table entries => !entries.isEmpty
  | link .. => true

/-- The value itself, or another one if it does not count as true. -/
def orElse (v w : Value) : Value := if v.isTruthy then v else w

mutual

/-- Whether two values have the same content. -/
def same : Value → Value → Bool
  | scalar a, scalar b => a.same b
  | list as, list bs => sameItems as bs
  | pair a b, pair c d => same a c && same b d
  | set as, set bs => as.length == bs.length && as.all fun a => bs.any (·.same a)
  | table as, table bs => as.length == bs.length && sameEntries as bs
  | link a _, link b _ => a == b
  | _, _ => false

/-- Whether two lists of values have the same content, place by place. -/
def sameItems : List Value → List Value → Bool
  | [], [] => true
  | a :: as, b :: bs => same a b && sameItems as bs
  | _, _ => false

/-- Whether every entry is found with the same content in the other table. -/
def sameEntries : List (Scalar × Value) → List (Scalar × Value) → Bool
  | [], _ => true
  | (k, v) :: rest, bs =>
    (match Table.find? bs k with
      | some w => same v w
      | none => false) && sameEntries rest bs

end

/-- Whether a comparison finds two values equal: they have the same content, but the float that is
not a number is equal to nothing, itself included. As a part of other values it is the same. -/
def equals (v w : Value) : Bool := v.same w && v.scalar? != some (.float .nan)

/-- Scalars are the same as values where they are the same. -/
@[simp] theorem same_scalar (a b : Scalar) : (scalar a).same (scalar b) = a.same b := by
  simp [same]

end Value
end BindGen

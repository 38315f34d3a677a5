import BindGen.Json.Token

/-!
# Reading JSON

A machine that takes the tokens of a text one by one. Its state holds the lists and tables that are
still open, innermost first, and what may come next. A key that appears twice keeps its first place
and its last value.
-/

namespace BindGen.Json

/-- Why a text is not read. -/
inductive ReadError where
  /-- the text is not JSON -/
  | malformed
  /-- an integer has more digits than are read -/
  | hugeInteger (digits : Nat)
  /-- more lists and tables stand in each other than are read -/
  | endless
deriving DecidableEq

/-- How many lists and tables may stand in each other. -/
def deepest : Nat := 986

/-- A list or table that is still open; the items of a list stand last first. -/
inductive Frame where
  | list (items : List Value)
  | table (entries : Table Value) (key : Scalar)

/-- What has been read and what may come next. -/
inductive State where
  /-- a value comes next -/
  | value (open_ : List Frame)
  /-- a first item or the end of the list comes next -/
  | firstItem (open_ : List Frame)
  /-- a first key or the end of the table comes next -/
  | firstKey (open_ : List Frame)
  /-- a key of the innermost table comes next -/
  | key (entries : Table Value) (open_ : List Frame)
  /-- a colon comes next -/
  | colon (entries : Table Value) (key : Scalar) (open_ : List Frame)
  /-- a comma or the end of the innermost list comes next -/
  | afterItem (items : List Value) (open_ : List Frame)
  /-- a comma or the end of the innermost table comes next -/
  | afterEntry (entries : Table Value) (open_ : List Frame)
  /-- the text has to end -/
  | done (v : Value)

/-- The state after a complete value. -/
def State.complete (v : Value) : List Frame → State
  | [] => .done v
  | .list items :: rest => .afterItem (v :: items) rest
  | .table entries k :: rest => .afterEntry (Table.put entries k v) rest

/-- The state inside a further list or table. -/
def State.enter (open_ : List Frame) (inside : State) : Except ReadError State :=
  if open_.length < deepest then .ok inside else .error .endless

/-- The step at a place where a value starts. -/
def State.start (open_ : List Frame) : Token → Except ReadError State
  | .listOpen => State.enter open_ (.firstItem open_)
  | .tableOpen => State.enter open_ (.firstKey open_)
  | .scalar s => .ok (State.complete (.scalar s) open_)
  | .hugeInteger digits => .error (.hugeInteger digits)
  | _ => .error .malformed

/-- The step at a scalar in place of a key of a table. -/
def State.keyRead (entries : Table Value) (open_ : List Frame) : Scalar → Except ReadError State
  | .text k => .ok (.colon entries (.text k) open_)
  | .broken k => .ok (.colon entries (.broken k) open_)
  | _ => .error .malformed

/-- The step of the machine at a token. -/
def State.step : State → Token → Except ReadError State
  | value open_, t => State.start open_ t
  | firstItem open_, .listClose => .ok (State.complete (.list []) open_)
  | firstItem open_, t => State.start (.list [] :: open_) t
  | firstKey open_, .tableClose => .ok (State.complete (.table []) open_)
  | firstKey open_, .scalar s => State.keyRead [] open_ s
  | key entries open_, .scalar s => State.keyRead entries open_ s
  | colon entries k open_, .colon => .ok (.value (.table entries k :: open_))
  | afterItem items open_, .comma => .ok (.value (.list items :: open_))
  | afterItem items open_, .listClose => .ok (State.complete (.list items.reverse) open_)
  | afterEntry entries open_, .comma => .ok (.key entries open_)
  | afterEntry entries open_, .tableClose => .ok (State.complete (.table entries) open_)
  | _, _ => .error .malformed

/-- The value that tokens write. -/
def ofTokens (ts : List Token) : Except ReadError Value :=
  match ts.foldlM State.step (.value []) with
  | .ok (.done v) => .ok v
  | .ok _ => .error .malformed
  | .error e => .error e

/-- The value that a text writes. -/
def read (s : String) : Except ReadError Value := ofTokens (tokens s.toList)

end BindGen.Json

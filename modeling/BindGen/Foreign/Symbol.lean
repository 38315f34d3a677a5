import BindGen.Text.Case
import BindGen.Value.Display
import BindGen.Value.Fault

/-!
# Foreign symbols and types

The names under which the functions, constructors and methods of a crate are found in its library,
and the C spelling of a type where a value crosses into it. Numbers and truth values cross as they
are, everything else behind a pointer.
-/

namespace BindGen

/-- Something that can be called through a library. -/
inductive Callable where
  | function (name : Value)
  | constructor (object name : Value)
  | method (object name : Value)

/-- A value's text in lower case. -/
def Value.lowered (v : Value) : String := String.ofList (Text.lower v.display.toList)

/-- A value's text in upper case. -/
def Value.raised (v : Value) : String := String.ofList (Text.upper v.display.toList)

/-- The symbol of a callable of a crate. -/
def Callable.symbol (crate : Value) : Callable → String
  | function name => s!"ffigen_{crate.display}_fn_func_{name.display}"
  | constructor object name =>
    s!"ffigen_{crate.display}_fn_constructor_{object.lowered}_{name.display}"
  | method object name => s!"ffigen_{crate.display}_fn_method_{object.lowered}_{name.display}"

namespace CType

/-- The types that cross as they are. -/
def scalars : List (String × String) :=
  [("u8", "uint8_t"), ("u16", "uint16_t"), ("u32", "uint32_t"), ("u64", "uint64_t"),
    ("i8", "int8_t"), ("i16", "int16_t"), ("i32", "int32_t"), ("i64", "int64_t"),
    ("f32", "float"), ("f64", "double"), ("bool", "bool")]

/-- The spelling of everything else. -/
def pointer : String := "void *"

/-- The C spelling of a type that may be absent. Models `c_type`. -/
def ofType (type : Value) : Except Fault String :=
  match type with
  | .null => .ok "void"
  | .text t => .ok ((scalars.lookup t).getD pointer)
  | .list _ | .set _ | .table _ => .error (.notHashable type.typeName)
  | _ => .ok pointer

end CType

end BindGen

import BindGen.Emitter.Basic
import BindGen.Language.Basic

/-!
# Built-in emitters

The styles of the languages that the generator has templates of its own for.
-/

namespace BindGen.Language

/-- How a language spells types and functions. -/
def spelling : Language → Spelling
  | kotlin =>
    { builtins :=
        [("void", "Unit"), ("u8", "UByte"), ("u16", "UShort"), ("u32", "UInt"), ("u64", "ULong"),
          ("i8", "Byte"), ("i16", "Short"), ("i32", "Int"), ("i64", "Long"), ("f32", "Float"),
          ("f64", "Double"), ("bool", "Boolean"), ("string", "String"), ("bytes", "ByteArray")]
      sequencePattern := "List<{inner}>"
      mapPattern := "Map<{key}, {value}>"
      optionalPattern := "{inner}?"
      camelCase := true }
  | swift =>
    { builtins :=
        [("void", "Void"), ("u8", "UInt8"), ("u16", "UInt16"), ("u32", "UInt32"),
          ("u64", "UInt64"), ("i8", "Int8"), ("i16", "Int16"), ("i32", "Int32"), ("i64", "Int64"),
          ("f32", "Float"), ("f64", "Double"), ("bool", "Bool"), ("string", "String"),
          ("bytes", "Data")]
      sequencePattern := "[{inner}]"
      mapPattern := "[{key}: {value}]"
      optionalPattern := "{inner}?"
      camelCase := true }
  | python =>
    { builtins :=
        [("void", "None"), ("u8", "int"), ("u16", "int"), ("u32", "int"), ("u64", "int"),
          ("i8", "int"), ("i16", "int"), ("i32", "int"), ("i64", "int"), ("f32", "float"),
          ("f64", "float"), ("bool", "bool"), ("string", "str"), ("bytes", "bytes")]
      sequencePattern := "typing.List[{inner}]"
      mapPattern := "typing.Dict[{key}, {value}]"
      optionalPattern := "typing.Optional[{inner}]"
      camelCase := false }
  | ruby =>
    { builtins :=
        [("void", "nil"), ("u8", "Integer"), ("u16", "Integer"), ("u32", "Integer"),
          ("u64", "Integer"), ("i8", "Integer"), ("i16", "Integer"), ("i32", "Integer"),
          ("i64", "Integer"), ("f32", "Float"), ("f64", "Float"), ("bool", "Boolean"),
          ("string", "String"), ("bytes", "String")]
      sequencePattern := "Array<{inner}>"
      mapPattern := "Hash\x7b\x7b{key} => {value}\x7d\x7d"
      optionalPattern := "{inner}, nil"
      camelCase := false }

/-- The templates of a language with the patterns of the names of the files. -/
def templates : Language → List (String × String)
  | kotlin => [(Template.kotlin.name, "{module}.kt")]
  | swift => [(Template.swift.name, "{module}.swift"), (Template.cHeader.name, "{module}FFI.h")]
  | python => [(Template.python.name, "{module}.py")]
  | ruby => [(Template.ruby.name, "{module}.rb")]

/-- The command that formats code of a language. -/
def formatter : Language → List String
  | kotlin => ["ktlint", "-F"]
  | swift => ["swiftformat"]
  | python => ["black", "--quiet"]
  | ruby => ["rubocop", "-a"]

/-- The style of a language. Only Kotlin has packages, and only Swift takes a C header. -/
def style (l : Language) : Style where
  language := l.name
  requiresCdylib := l.requiresCdylib
  templates := l.templates
  formatter := l.formatter
  spelling := l.spelling
  packaged := l == kotlin
  cTypes := if l = swift then Template.CHeader.known else Template.CHeader.unknown

end BindGen.Language

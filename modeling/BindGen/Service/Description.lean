import BindGen.Product
import BindGen.Value.Basic

/-!
# What the service says about itself

A document of OpenAPI with the operations of the service and the shapes of the bodies that clients
send and get.
-/

namespace BindGen.Service

/-- The title of the service. -/
def title : String := productName ++ " service"

/-- The shape of a value. A named shape is that of a body. -/
inductive Shape where
  | text
  | truth
  | integer
  | nothing
  | either (first second : Shape)
  | list (item : Shape) (least : Nat)
  | named (name : String)

/-- A shape in the words of the document. -/
def Shape.words : Shape → Table Value
  | text => [("type", "string")]
  | truth => [("type", "boolean")]
  | integer => [("type", "integer")]
  | nothing => [("type", "null")]
  | either first second => [("anyOf", .list [.table first.words, .table second.words])]
  | list item 0 => [("type", "array"), ("items", .table item.words)]
  | list item least => [("type", "array"), ("items", .table item.words), ("minItems", .int least)]
  | named name => [("$ref", .text ("#/components/schemas/" ++ name))]

/-- A part of a body, with its title and with what it is taken for if it is absent. -/
structure Part where
  name : String
  title : String
  shape : Shape
  isRequired : Bool
  preset : Option Value

/-- The words of a name, each with a capital. -/
def titleOf (name : String) : String :=
  " ".intercalate ((name.splitOn "_").map String.capitalize)

namespace Part

/-- A part that has to be there. -/
def required (name : String) (shape : Shape) : Part := ⟨name, titleOf name, shape, true, none⟩

/-- A part that may be absent. -/
def optional (name : String) (shape : Shape) (preset : Option Value) : Part :=
  ⟨name, titleOf name, shape, false, preset⟩

/-- A text that may be absent or null. -/
def optionalText (name : String) : Part := optional name (.either .text .nothing) none

/-- A part in the words of the document. -/
def words (p : Part) : Table Value :=
  let titled : Table Value := [("title", .text p.title)]
  let preset : Table Value := match p.preset with
    | some v => [("default", v)]
    | none => []
  titled ++ p.shape.words ++ preset

end Part

/-- A body with its parts. -/
structure BodyShape where
  name : String
  parts : List Part

/-- A body in the words of the document. -/
def BodyShape.words (b : BodyShape) : Table Value :=
  let needed := (b.parts.filter Part.isRequired).map fun p => Value.text p.name
  let required : Table Value := if needed.isEmpty then [] else [("required", .list needed)]
  let properties : Table Value := b.parts.map fun p => (.text p.name, .table p.words)
  ("title", .text b.name) :: ("type", "object") :: ("properties", .table properties) :: required

/-- The bodies that clients send and get. -/
def bodyShapes : List BodyShape :=
  [⟨"GenerateRequest",
      [.required "library_path" .text, .required "languages" (.list .text 1),
        .required "out_dir" .text, .optionalText "crate_name",
        .optional "try_format_code" .truth (some (.bool true)), .optionalText "config_override"]⟩,
    ⟨"InspectRequest",
      [.required "library_path" .text, .optionalText "crate_name", .optionalText "config_override"]⟩,
    ⟨"SourceSummary",
      [.required "crate_name" .text, .required "package" .text, .optionalText "namespace",
        .required "checksum" .text, .optional "inherited_from" (.list .text 0) none]⟩,
    ⟨"SourcesResponse",
      [.required "status" .text, .required "sources" (.list (.named "SourceSummary") 0)]⟩,
    ⟨"HealthResponse", [.required "status" .text, .required "version" .text]⟩,
    ⟨"HTTPValidationError",
      [.optional "detail" (.list (.named "ValidationError") 0) none]⟩,
    ⟨"ValidationError",
      [⟨"loc", "Location", .list (.either .text .integer) 0, true, none⟩,
        ⟨"msg", "Message", .text, true, none⟩, ⟨"type", "Error Type", .text, true, none⟩]⟩]

/-- An operation, with the bodies that it takes and gives. -/
structure Operation where
  name : String
  path : String
  method : String
  takes : Option String
  gives : String

/-- The operations of the service. -/
def operations : List Operation :=
  [⟨"health", "/health", "get", none, "HealthResponse"⟩,
    ⟨"generate", "/generate", "post", some "GenerateRequest", "SourcesResponse"⟩,
    ⟨"inspect", "/inspect", "post", some "InspectRequest", "SourcesResponse"⟩]

namespace Operation

/-- The content that has the shape of a body. -/
def content (body : String) : Scalar × Value :=
  ("content", .table [("application/json", .table [("schema", .table (Shape.named body).words)])])

/-- A response in the words of the document. -/
def response (meaning body : String) : Value :=
  .table [("description", .text meaning), content body]

/-- An operation in the words of the document. Only one that takes a body can be asked with a wrong
one. -/
def words (o : Operation) : Table Value :=
  let stem := String.ofList (o.path.toList.map fun c => if c = '/' then '_' else c)
  let request : Table Value := match o.takes with
    | some body => [("requestBody", .table [content body, ("required", .bool true)])]
    | none => []
  let wrong : Table Value :=
    if o.takes.isSome then [("422", response "Validation Error" "HTTPValidationError")] else []
  ("summary", .text (titleOf o.name)) ::
    ("operationId", .text (o.name ++ stem ++ "_" ++ o.method)) ::
    ("responses", .table (("200", response "Successful Response" o.gives) :: wrong)) :: request

end Operation

/-- The document. -/
def description : Value :=
  let paths : Table Value := operations.map fun o =>
    (.text o.path, .table [(.text o.method, .table o.words)])
  let bodies : Table Value := bodyShapes.map fun b => (.text b.name, .table b.words)
  .table
    [("openapi", "3.1.0"),
      ("info", .table [("title", .text title), ("version", .text productVersion)]),
      ("paths", .table paths), ("components", .table [("schemas", .table bodies)])]

end BindGen.Service

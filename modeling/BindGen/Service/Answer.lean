import BindGen.Generation.Report
import BindGen.Json.Encoding
import BindGen.Json.Reader
import BindGen.Service.Body
import BindGen.Service.Description
import BindGen.Source.Summary

/-!
# Answers to requests

The service says how it is, lists the crates of a library and generates bindings. Errors that the
client can act on are answered with their name and message, a missing file as such, and accidents
with nothing but a status. The service also describes itself, and shows pages about itself that are
no JSON.
-/

namespace BindGen.Service

/-- A request to the service. -/
structure Request where
  method : String
  path : String
  body : Bytes

/-- An answer: its status, and its body unless that is left to the server. -/
structure Answer where
  status : Nat
  body : Option Value

namespace Answer

/-- An answer with an explanation. -/
def detail (status : Nat) (text : String) : Answer :=
  ⟨status, some (.table [("detail", .text text)])⟩

/-- The answer to a request that met with an accident. -/
def accident : Answer := ⟨500, none⟩

/-- The answer to a request whose body is no JSON. -/
def malformed : Answer := ⟨422, none⟩

/-- The answer to a request whose body does not have the shape that it needs. It quotes the wrong
parts, which has to be possible. -/
def invalid (wrong : List Value) : Answer :=
  if wrong.all Json.isStandard then ⟨422, none⟩ else accident

/-- The answer to a request whose body cannot be decoded, has an integer of too many digits or is
nested too deep. -/
def unreadable : Answer := detail 400 "There was an error parsing the body"

/-- The answer that sends the client to another path. -/
def redirect : Answer := ⟨307, some .null⟩

/-- The answer with a page that is no JSON. -/
def page : Answer := ⟨200, some .null⟩

/-- The answer to a question what the service is. -/
def description : Answer := ⟨200, some Service.description⟩

/-- The answer to a request that failed. -/
def ofReport : Report → Answer
  | .named name message =>
    ⟨400, some (.table [("detail", .text message), ("error", .text name)])⟩
  | .missingFile message => detail 404 message
  | .accident => accident

/-- The answer with the sources of a run. -/
def ofSources (sources : List Source) : Answer :=
  match Summary.ofSources sources with
  | .error _ => accident
  | .ok summaries =>
    match summaries.mapM Summary.table? with
    | some tables => ⟨200, some (.table [("status", "ok"), ("sources", .list tables)])⟩
    | none => accident

/-- The answer to a question how the service is. Models `HealthResponse`. -/
def health : Answer :=
  ⟨200, some (.table [("status", "ok"), ("version", .text productVersion)])⟩

end Answer

/-- What the service can be asked for; a page is for readers. -/
inductive Route where
  | health
  | generate
  | inspect
  | description
  | page
deriving DecidableEq

namespace Route

/-- All routes, with their paths and methods. -/
def all : List (String × List String × Route) :=
  [("/health", ["GET"], health), ("/generate", ["POST"], generate), ("/inspect", ["POST"], inspect),
    ("/openapi.json", ["GET", "HEAD"], description), ("/docs", ["GET", "HEAD"], page),
    ("/docs/oauth2-redirect", ["GET", "HEAD"], page), ("/redoc", ["GET", "HEAD"], page)]

/-- The methods and the route of a path; a line feed may end it. -/
def at? (path : List Char) : Option (List String × Route) :=
  let bare := if path.getLast? = some '\n' then path.dropLast else path
  all.lookup (String.ofList bare)

/-- The path without slashes at its end. -/
def unslashed (path : List Char) : List Char := (Text.splitTail (· == '/') path).1

/-- The route of a request, or the answer that there is none. A path with slashes behind that of a
route leads there. -/
def ofRequest (r : Request) : Except Answer Route :=
  let path := r.path.toList
  match at? path with
  | some (methods, route) =>
    if methods.contains r.method then .ok route else .error (.detail 405 "Method Not Allowed")
  | none =>
    if path.getLast? = some '/' && (at? (unslashed path)).isSome then .error .redirect
    else .error (.detail 404 "Not Found")

end Route

/-- The value that a body writes; an empty body writes null. -/
def readBody (body : Bytes) : Except Answer Value :=
  if body.isEmpty then .ok .null
  else
    match Json.textOfBytes? body with
    | none => .error .unreadable
    | some text =>
      match Json.read text with
      | .ok v => .ok v
      | .error .malformed => .error .malformed
      | .error (.hugeInteger _) | .error .endless => .error .unreadable

/-- The answer of a route to a body, with the emitters of a catalog. -/
def answerTo (catalog : Catalog) (route : Route) (body : Value) : StateM Workspace Answer := do
  match route with
  | .health => return .health
  | .description => return .description
  | .page => return .page
  | .inspect =>
    match ofBody loadRequest body with
    | .error wrong => return .invalid wrong
    | .ok r =>
      match ← Source.load r with
      | .ok sources => return .ofSources sources
      | .error e => return .ofReport e.report
  | .generate =>
    match ofBody generationRequest body with
    | .error wrong => return .invalid wrong
    | .ok r =>
      match ← Generation.run catalog r with
      | .ok sources => return .ofSources sources
      | .error e => return .ofReport e.report

/-- Answers a request. The generator is made for each request that needs it, before the shape of the
body is looked at; making it may fail. Models `create_app`. -/
def answer (generator : Except Report Catalog) (r : Request) : StateM Workspace Answer := do
  match Route.ofRequest r with
  | .error a => return a
  | .ok .health => return .health
  | .ok .description => return .description
  | .ok .page => return .page
  | .ok route =>
    match readBody r.body, generator with
    | .error a, _ => return a
    | .ok _, .error report => return .ofReport report
    | .ok body, .ok catalog => answerTo catalog route body

end BindGen.Service

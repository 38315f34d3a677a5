import BindGen.CommandLine.Reading
import BindGen.Generation.Basic

/-!
# Invocations

The commands of the program, their switches, and what a command line asks for: to generate bindings,
to list the crates of a library, or to serve requests. The volume of the log can be set in front of
the command and behind it.
-/

namespace BindGen.CommandLine

/-- A switch without an argument. -/
def flag (names : List String) (help : String) : Switch := ⟨names, none, false, help⟩

/-- The switches that every command has. Models `_add_verbosity_options`. -/
def commonSwitches : List Switch :=
  [flag ["-h", "--help"] "show this help message and exit",
    flag ["-v", "--verbose"] "Increase log verbosity for troubleshooting.",
    flag ["-q", "--quiet"] "Only report warnings and errors."]

/-- The switches that choose what to load. Models `_add_library_options`. -/
def loadSwitches : List Switch :=
  [⟨["--crate"], some ⟨"CRATE_NAME", .text⟩, false,
      "Only handle the crate with this name (defaults to every crate in the library)."⟩,
    ⟨["--config"], some ⟨"CONFIG", .text⟩, false,
      s!"Config file laid over every crate's own {productName}.toml/.{productName}.yml."⟩,
    ⟨["--manifest-path"], some ⟨"MANIFEST_PATH", .text⟩, false,
      "Cargo.toml of the workspace to query (defaults to the current directory)."⟩]

/-- The library to load. -/
def libraryOperand : Operands :=
  .one "library" "Path to the compiled library (cdylib or staticlib)."

/-- The commands, with what they do. -/
def commands : List (String × String) :=
  [("generate", "Generate bindings for the crates in a compiled library."),
    ("inspect", "List the crates found in a library and their resolved settings."),
    ("serve", "Run the HTTP service.")]

/-- The grammar of the program. Models `_build_parser`. -/
def mainGrammar : Grammar where
  program := productName
  description :=
    some "Generate foreign-language bindings for the crates linked into a library."
  switches := commonSwitches ++
    [⟨["--log-file"], some ⟨"LOG_FILE", .text⟩, false, "Also write logs to this file."⟩]
  operands := .command "command" commands

/-- The grammar of a command. -/
def commandGrammar (name : String) (switches : List Switch) (operands : Operands) : Grammar :=
  ⟨productName ++ " " ++ name, none, commonSwitches ++ switches, operands⟩

/-- The grammar of generation. -/
def generateGrammar : Grammar :=
  let switches := loadSwitches ++
    [⟨["-l", "--language"], some ⟨"LANGUAGES", .text⟩, true,
        "Target language (kotlin, swift, python, ruby); repeat for several."⟩,
      ⟨["-o", "--out-dir"], some ⟨"OUT_DIR", .text⟩, true,
        "Directory to write generated sources into."⟩,
      flag ["--no-format"] "Skip running language formatters on generated sources."]
  commandGrammar "generate" switches libraryOperand

/-- The grammar of inspection. -/
def inspectGrammar : Grammar := commandGrammar "inspect" loadSwitches libraryOperand

/-- The grammar of serving. -/
def serveGrammar : Grammar :=
  commandGrammar "serve"
    [⟨["--host"], some ⟨"HOST", .text⟩, false, ""⟩, ⟨["--port"], some ⟨"PORT", .integer⟩, false, ""⟩]
    .none

/-- What the program is asked to do. -/
inductive Action where
  | generate (r : GenerationRequest)
  | inspect (r : LoadRequest)
  | serve (host : String) (port : Int)

/-- What a command line asks for. -/
structure Invocation where
  verbose : Bool
  quiet : Bool
  logFile : Option Path
  action : Action

namespace Invocation

/-- What to load. -/
def loadRequest (f : Findings) : LoadRequest where
  library := Path.ofText (f.operands.headD "")
  crate := f.argument? "--crate"
  override := (f.argument? "--config").map Path.ofText
  manifest := (f.argument? "--manifest-path").map Path.ofText

/-- What to generate. -/
def generationRequest (f : Findings) : GenerationRequest where
  load := loadRequest f
  languages := (f.arguments "--language").map emitterKey
  directory := Path.ofText ((f.argument? "--out-dir").getD "")
  format := !f.has "--no-format"

/-- The port that is served if none is given. -/
def standardPort : Int := 8000

/-- The grammar of a command, and what it asks for. -/
def command? (name : String) : Option (Grammar × (Findings → Action)) :=
  match name with
  | "generate" => some (generateGrammar, fun f => .generate (generationRequest f))
  | "inspect" => some (inspectGrammar, fun f => .inspect (loadRequest f))
  | "serve" =>
    some (serveGrammar, fun f =>
      .serve ((f.argument? "--host").getD "127.0.0.1")
        (((f.argument? "--port").bind fun n => Text.integer? n.toList).getD standardPort))
  | _ => none

/-- What a command line asks for. -/
def ofLine (line : List String) : Except Stop Invocation := do
  let g := mainGrammar
  let found ← g.read line
  let (name, rest) := (found.operands.headD "", found.operands.tail)
  match command? name with
  | none => throw (.misuse g (.unknownCommand "command" name (commands.map (·.1))))
  | some (own, action) =>
    let inner ← own.read rest
    match found.extras ++ inner.extras with
    | [] =>
      return ⟨found.has "--verbose" || inner.has "--verbose",
        found.has "--quiet" || inner.has "--quiet",
        (found.argument? "--log-file").map Path.ofText, action inner⟩
    | extras => throw (.misuse g (.unrecognized extras))

end Invocation
end BindGen.CommandLine

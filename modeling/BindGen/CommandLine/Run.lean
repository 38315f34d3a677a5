import BindGen.CommandLine.Help
import BindGen.CommandLine.Invocation
import BindGen.Generation.Report
import BindGen.Source.Summary

/-!
# Running commands

What the program does for a command line: it answers with a help text, complains about the command
line, generates bindings, lists the crates of a library, or hands over to a server. An error that
the user can act on is reported with its message; an accident ends the run as it is.
-/

namespace BindGen.CommandLine

/-- How a run of the program ends. -/
inductive Ending where
  | status (n : Nat)
  | noLogFile (e : FileError)
  | failed (e : GenerationError)
  | fault (f : Fault)

/-- Where requests are served. -/
structure Address where
  host : String
  port : Int

/-- What a run of the program leads to besides the state of the workspace. -/
structure Conclusion where
  ending : Ending
  /-- what is printed -/
  output : String
  /-- what is printed for errors, behind the lines of the log -/
  complaint : String
  /-- where a server has to be started -/
  served : Option Address

namespace Conclusion

/-- The end of a run that prints a text. -/
def printed (output : String) : Conclusion := ⟨.status 0, output, "", none⟩

/-- The end of a run that fails, after it printed a text. -/
def ended (ending : Ending) (output : String) : Conclusion := ⟨ending, output, "", none⟩

/-- The end of a run whose command line stops it. -/
def ofStop : Stop → Conclusion
  | .help g => printed g.help
  | .misuse g m => ⟨.status 2, "", g.usage ++ s!"{g.program}: error: {m.message}\n", none⟩

/-- The end of a command that fails. -/
def ofError (command : String) (e : GenerationError) : Conclusion :=
  match e.report with
  | .named _ message =>
    let complaint := s!"{productName} {command} failed: {message}\n"
      ++ "Run with --verbose for more details.\n"
    ⟨.status 1, "", complaint, none⟩
  | _ => ended (.failed e) ""

/-- The end of a run that lists sources behind a heading, each line indented. Models
`_describe_sources`. -/
def listing (heading indentation : String) (sources : List Source) : Conclusion :=
  match Summary.ofSources sources with
  | .ok summaries =>
    printed (heading ++ String.join (summaries.map fun s => indentation ++ s.line ++ "\n"))
  | .error f => ended (.fault f) heading

end Conclusion

/-- A path as it is shown to the user: below the working directory, if it is there. Models
`_relativize`. -/
def shownPath (files : Tree) (p : Path) : String :=
  let full := files.resolve p
  if full.root = files.home.root && files.home.parts.isPrefixOf full.parts then
    Path.text ⟨"", full.parts.drop files.home.parts.length⟩
  else p.text

/-- Does what a command line asks for. -/
def perform : Action → StateM Workspace Conclusion
  | .serve host port => return ⟨.status 0, "", "", some ⟨host, port⟩⟩
  | .inspect r => do
    match ← Source.load r with
    | .ok sources => return .listing "" "" sources
    | .error e => return .ofError "inspect" (.load e)
  | .generate r => do
    match ← Generation.run (Catalog.builtIn none) r with
    | .ok sources =>
      let languages := ", ".intercalate r.languages
      let directory := shownPath (← get).files r.directory
      return .listing s!"Generated {languages} bindings in {directory}:\n" "  " sources
    | .error e => return .ofError "generate" e

/-- Runs the program with a command line. Models `main`. -/
def run (line : List String) : StateM Workspace Conclusion := do
  match Invocation.ofLine line with
  | .error stop => return .ofStop stop
  | .ok i =>
    let (w, e) := (← get).configureLog i.verbose i.quiet i.logFile
    set w
    match e with
    | some e => return .ended (.noLogFile e) ""
    | none => perform i.action

end BindGen.CommandLine

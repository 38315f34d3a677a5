import BindGen.CommandLine.Run
import BindGen.Service.Answer
import Std.Time

/-!
# The program

Reads the files below the working directory, does what the command line asks for, and writes back
the files that this leads to. No programs are started: the listing of packages is taken from the
file that the environment variable `CARGO_METADATA` names, and formatters count as missing. A
service answers the requests on standard input, one in each line: a method, a path and a body.
-/

namespace BindGen.Main

/-- What a directory entry holds, with everything below it. -/
partial def entriesOf (place : List String) (e : IO.FS.DirEntry) :
    IO (List (List String × Node)) := do
  let here := place ++ [e.fileName]
  if ← e.path.isDir then
    let inner ← (← e.path.readDir).toList.mapM (entriesOf here)
    return (here, .directory) :: inner.flatten
  return [(here, .file (← IO.FS.readBinFile e.path).toList)]

/-- The files below the working directory. -/
def readTree : IO Tree := do
  let here ← IO.currentDir
  let entries ← (← here.readDir).toList.mapM (entriesOf [])
  return ⟨Path.ofText here.toString, entries.flatten⟩

/-- The time, as it stands in front of the lines of log files. -/
def stamp : IO String := do
  return (← Std.Time.PlainDateTime.now).format "uuuu-MM-dd HH:mm:ss,SSS"

/-- What starting a command leads to. -/
def reply (listing : Option String) (command : List String) : ProgramReply :=
  match command, listing with
  | program :: _, some text => if program = Package.lister then .finished text else .missing
  | _, _ => .missing

/-- The listing of packages, if there is one. -/
def readListing : IO (Option String) := do
  match ← IO.getEnv "CARGO_METADATA" with
  | some file => return some (← IO.FS.readFile file)
  | none => return none

/-- The workspace that a run starts with. -/
def readWorkspace : IO Workspace := do
  return ⟨← readTree, reply (← readListing), [], [], .initial (← stamp), []⟩

/-- Writes back what a run changed. -/
def writeBack (before after : Tree) : IO Unit :=
  after.entries.forM fun (place, n) => do
    let path := "/".intercalate place
    match n, before.entries.lookup place with
    | .directory, none => IO.FS.createDirAll path
    | .directory, some _ => return
    | .file content, some (.file old) =>
      if content != old then IO.FS.writeBinFile path ⟨content.toArray⟩
    | .file content, _ => IO.FS.writeBinFile path ⟨content.toArray⟩

/-- The request that a line writes. -/
def requestOf (line : String) : Service.Request :=
  match Text.cut (· == ' ') (Text.trim line.toList) with
  | method :: path :: body =>
    ⟨String.ofList method, String.ofList path, Utf8.encode ([' '].intercalate body)⟩
  | _ => ⟨"", "", []⟩

/-- Answers the requests on standard input. -/
partial def serve (input : IO.FS.Stream) (w : Workspace) : IO Unit := do
  let line ← input.getLine
  if line.isEmpty then return
  let (a, after) := (Service.answer (.ok (Catalog.builtIn none)) (requestOf line)).run w
  writeBack w.files after.files
  let body := String.ofList ((a.body.map Json.write).getD [])
  IO.println s!"{a.status} {body}"
  serve input after

/-- The status of a run. -/
def statusOf : CommandLine.Ending → UInt32
  | .status n => n.toUInt32
  | _ => 1

/-- The wording of an accident. -/
def accidentOf : CommandLine.Ending → String
  | .status _ => ""
  | .noLogFile e => e.message ++ "\n"
  | .failed e => e.message ++ "\n"
  | .fault f => f.message ++ "\n"

end BindGen.Main

/-- Runs the program with the words of a command line. -/
def main (line : List String) : IO UInt32 := do
  let before ← BindGen.Main.readWorkspace
  let (c, after) := (BindGen.CommandLine.run line).run before
  BindGen.Main.writeBack before.files after.files
  IO.print c.output
  after.console.forM IO.eprintln
  IO.eprint (c.complaint ++ BindGen.Main.accidentOf c.ending)
  if c.served.isSome then BindGen.Main.serve (← IO.getStdin) after
  return BindGen.Main.statusOf c.ending

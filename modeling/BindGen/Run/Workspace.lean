import BindGen.Run.Journal

/-!
# Workspaces

What a run works on: files, the programs it may start, and the journal of its messages. A step of a
run may fail with an error; what it did before that stays done. A command that fails is worded by
how it ended: its program is missing, it has a status other than zero, or a signal ended it.
-/

namespace BindGen

/-- How a program ends. -/
inductive ProgramReply where
  | missing
  | finished (output : String)
  | failed (status : Int) (complaint : Option String)

/-- A call of an emitter: its language, the crate it wrote bindings for, and where to. -/
structure EmitterCall where
  language : String
  crate : Value
  directory : Path
  format : Bool

/-- The state of a run. -/
structure Workspace where
  files : Tree
  /-- what starting a command leads to -/
  programs : List String → ProgramReply
  /-- the commands started so far -/
  commands : List (List String)
  /-- the emitters called so far -/
  calls : List EmitterCall
  journal : Journal
  /-- the lines on the console so far -/
  console : List String

/-- A step of a run. -/
abbrev Run (ε α : Type) := ExceptT ε (StateM Workspace) α

namespace Run

variable {ε ε' α : Type}

/-- A step that leaves the workspace as it is. -/
def ofExcept (x : Except ε α) : Run ε α := fun w => (x, w)

/-- A step whose failures count as those of a larger one. -/
def orElse (encode : ε → ε') (x : Except ε α) : Run ε' α := ofExcept (x.mapError encode)

/-- A run whose failures count as those of a larger one. -/
def lift (encode : ε → ε') (x : Run ε α) : Run ε' α := fun w =>
  match x w with
  | (.ok a, w) => (.ok a, w)
  | (.error e, w) => (.error (encode e), w)

/-- The files of the workspace. -/
def files : Run ε Tree := do return (← get).files

/-- Starts a program. -/
def start (command : List String) : Run ε ProgramReply := fun w =>
  (.ok (w.programs command), { w with commands := w.commands ++ [command] })

/-- Records the call of an emitter. -/
def record (call : EmitterCall) : Run ε Unit := fun w =>
  (.ok (), { w with calls := w.calls ++ [call] })

/-- Makes a directory and those on the way to it. -/
def makeDirectories (p : Path) : Run FileError Unit := fun w =>
  match w.files.makeDirectories p with
  | (files, none) => (.ok (), { w with files })
  | (files, some e) => (.error e, { w with files })

/-- Writes a text file. -/
def writeText (p : Path) (text : String) : Run FileError Unit := fun w =>
  match w.files.write p (Utf8.encode text.toList) with
  | .ok files => (.ok (), { w with files })
  | .error e => (.error e, w)

end Run

namespace Workspace

/-- The workspace after a delivery. A line that cannot be added to its file is lost. -/
def accept (w : Workspace) : Delivery → Workspace
  | .console line => { w with console := w.console ++ [line] }
  | .file path line =>
    match w.files.append path (Utf8.encode (line ++ "\n").toList) with
    | .ok files => { w with files }
    | .error _ => w

/-- The workspace after a message. -/
def note (w : Workspace) (m : Message) : Workspace :=
  (w.journal.deliveries m).foldl accept w

/-- The workspace with logging configured, and why the log file cannot be opened. -/
def configureLog (w : Workspace) (verbose quiet : Bool) (file : Option Path) :
    Workspace × Option FileError :=
  let plain := { w with journal := w.journal.configure verbose quiet none }
  match file with
  | none => (plain, none)
  | some path =>
    match w.files.makeDirectories path.parent with
    | (files, some e) => ({ plain with files }, some e)
    | (files, none) =>
      match files.append path [] with
      | .ok files =>
        ({ w with files, journal := w.journal.configure verbose quiet (some path) }, none)
      | .error e => ({ plain with files }, some e)

end Workspace

namespace Run

/-- Notes a message. -/
def log {ε : Type} (part : String) (level : Level) (text : String) : Run ε Unit := fun w =>
  (.ok (), w.note ⟨Journal.originOf (some part), level, text⟩)

end Run

/-! ## Commands that fail -/

namespace Command

/-- The signals that can end a program. -/
def signals : List (Nat × String) :=
  [(1, "SIGHUP"), (2, "SIGINT"), (3, "SIGQUIT"), (4, "SIGILL"), (5, "SIGTRAP"), (6, "SIGABRT"),
    (7, "SIGBUS"), (8, "SIGFPE"), (9, "SIGKILL"), (10, "SIGUSR1"), (11, "SIGSEGV"),
    (12, "SIGUSR2"), (13, "SIGPIPE"), (14, "SIGALRM"), (15, "SIGTERM"), (16, "SIGSTKFLT"),
    (17, "SIGCHLD"), (18, "SIGCONT"), (19, "SIGSTOP"), (20, "SIGTSTP"), (21, "SIGTTIN"),
    (22, "SIGTTOU"), (23, "SIGURG"), (24, "SIGXCPU"), (25, "SIGXFSZ"), (26, "SIGVTALRM"),
    (27, "SIGPROF"), (28, "SIGWINCH"), (29, "SIGIO"), (30, "SIGPWR"), (31, "SIGSYS"),
    (34, "SIGRTMIN"), (64, "SIGRTMAX")]

/-- A command as it is shown in messages. -/
def quoted (command : List String) : String := (Value.list (command.map .text)).quoted

/-- How a status other than zero is worded; a negative one is the number of a signal. -/
def outcome (status : Int) : String :=
  if status < 0 then
    match signals.lookup status.natAbs with
    | some name => s!"died with <Signals.{name}: {status.natAbs}>."
    | none => s!"died with unknown signal {status.natAbs}."
  else s!"returned non-zero exit status {status}."

/-- The wording for a command that failed. -/
def failure (command : List String) (status : Int) : String :=
  s!"Command '{quoted command}' {outcome status}"

/-- The failure to find a program. -/
def missing (program : String) : FileError := ⟨.notFound, some program⟩

end Command
end BindGen

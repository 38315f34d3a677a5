import BindGen.File.Tree
import BindGen.Product

/-!
# Journals

Where the messages of a run go. A journal is configured with a level for the console and perhaps a
file; every configuration takes the place of the one before. A message has to reach the level of the
journal and then that of each sink; `Journal.deliveries` lists what a message leads to.
-/

namespace BindGen

/-- How much a message matters. -/
structure Level where
  rank : Int
deriving DecidableEq

namespace Level

/-- The level of what only helps to find an error. -/
def debug : Level := ⟨10⟩

/-- The level of what happens as expected. -/
def info : Level := ⟨20⟩

/-- The level of what may go wrong. -/
def warning : Level := ⟨30⟩

/-- The level of what went wrong. -/
def error : Level := ⟨40⟩

/-- The level of what ends a run. -/
def critical : Level := ⟨50⟩

/-- The ranks that have a name. -/
def names : List (Int × String) :=
  [(50, "CRITICAL"), (40, "ERROR"), (30, "WARNING"), (20, "INFO"), (10, "DEBUG"), (0, "NOTSET")]

/-- The name of a level. -/
def name (l : Level) : String := (names.lookup l.rank).getD s!"Level {l.rank}"

/-- The level of a run that is asked to be verbose or quiet; verbose wins. Models
`_resolve_level`. -/
def chosen (verbose quiet : Bool) : Level :=
  if verbose then debug else if quiet then warning else info

end Level

/-- What takes messages in. -/
inductive Sink where
  | console (level : Level)
  | file (level : Level) (path : Path)

/-- The level from which a sink takes messages in. -/
def Sink.level : Sink → Level
  | console l => l
  | file l _ => l

/-- A message with the name of the part of the program that it comes from. -/
structure Message where
  origin : String
  level : Level
  text : String

/-- What a message leads to. -/
inductive Delivery where
  | console (line : String)
  | file (path : Path) (line : String)

/-- The state of logging. -/
structure Journal where
  /-- the level below which messages are dropped -/
  level : Level
  sinks : List Sink
  /-- whether the journal was ever configured -/
  configured : Bool
  /-- what stands in front of every line of a file: the time -/
  stamp : String

namespace Journal

/-- The full name of a part of the program. Models `get_logger`. -/
def originOf (part : Option String) : String :=
  match part with
  | none | some "" => productName
  | some name => productName ++ "." ++ name

/-- A journal that is not configured: what matters goes to the console as it is. -/
def initial (stamp : String) : Journal :=
  ⟨.warning, [.console .warning], false, stamp⟩

/-- The journal after a configuration. Models `configure_logging`. -/
def configure (j : Journal) (verbose quiet : Bool) (file : Option Path) : Journal :=
  let level := Level.chosen verbose quiet
  let files := file.toList.map fun p => Sink.file .debug p
  { j with level, sinks := .console level :: files, configured := true }

/-- The delivery of a message to a sink. -/
def deliver (j : Journal) (m : Message) : Sink → Delivery
  | .console _ =>
    .console (if j.configured then s!"[{productName}] {m.level.name} {m.text}" else m.text)
  | .file _ path => .file path s!"{j.stamp} {m.level.name} {m.origin}: {m.text}"

/-- What a message leads to, sink by sink. -/
def deliveries (j : Journal) (m : Message) : List Delivery :=
  if m.level.rank < j.level.rank then []
  else (j.sinks.filter fun s => s.level.rank ≤ m.level.rank).map (j.deliver m)

end Journal
end BindGen

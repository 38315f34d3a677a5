import BindGen.Generation.Basic

/-!
# Reports

How errors show outside of the program. An error that the user can act on has a name and a message.
A file that is missing is reported as such; all other failures are accidents.
-/

namespace BindGen

/-- How an error shows outside of the program. -/
inductive Report where
  | named (name message : String)
  | missingFile (message : String)
  | accident
deriving DecidableEq

/-- The report on a file error. -/
def FileError.report (e : FileError) : Report :=
  if e.reason = .notFound then .missingFile e.message else .accident

/-- The report on a failed query of packages. -/
def GraphError.report : GraphError → Report
  | fault _ => .accident
  | e => .named "CannotQueryBuildGraphError" e.message

/-- The report on metadata that cannot be read, for a library. -/
def ExtractionError.report (library : Path) : ExtractionError → Report
  | fault _ => .accident
  | e => .named "MetadataExtractionError" (e.message library.text)

/-- The report on items that cannot be grouped. -/
def GroupingError.report : GroupingError → Report
  | fault _ => .accident
  | e => .named "GroupingError" e.message

/-- The report on a crate that belongs to no single package. -/
def AttributionError.report : AttributionError → Report
  | e@(notFound _) => .named "PackageNotFoundError" e.message
  | e@(ambiguous ..) => .named "AmbiguousPackageError" e.message

/-- The report on an interface definition file that is not read. -/
def UdlFileError.report : UdlFileError → Report
  | e@(several ..) => .named "MultipleUdlFilesError" e.message
  | e@(notFound _) => .named "UdlFileNotFoundError" e.message
  | notText => .accident
  | unreadable e => e.report
  | invalid e => .named "UdlParseError" e.message

/-- The report on an item that does not fit into an interface. -/
def ConflictError.report : ConflictError → Report
  | fault _ => .accident
  | e => .named "MetadataConflictError" e.message

/-- The report on settings that cannot be loaded. -/
def SettingsError.report : SettingsError → Report
  | fault _ => .accident
  | notText => .accident
  | noHome => .accident
  | file e => e.report
  | e => .named "ConfigError" e.message

/-- The report on a crate that is not selected. -/
def SelectionError.report : SelectionError → Report
  | e@(notFound ..) => .named "CrateNotFoundError" e.message
  | e@(ambiguous ..) => .named "AmbiguousCrateError" e.message

/-- The report on sources that are not loaded. -/
def LoadError.report : LoadError → Report
  | graph e => e.report
  | e@(unreadable ..) => .named "MetadataExtractionError" e.message
  | unnameable e => e.report
  | e@(noMetadata _) => .named "MetadataExtractionError" e.message
  | extraction library e => e.report library
  | grouping e => e.report
  | attribution e => e.report
  | definition e => e.report
  | conflict e => e.report
  | settings e => e.report
  | selection e => e.report

/-- The report on an emitter that fails. -/
def EmitError.report : EmitError → Report
  | fault _ => .accident
  | file e => e.report
  | e => .named "EmitterError" e.message

/-- The report on a run of the generator that fails. -/
def GenerationError.report : GenerationError → Report
  | load e => e.report
  | directory e => e.report
  | emitter e => e.report
  | e@(unwritten ..) => .named "EmitterError" e.message
  | e => .named "BindingValidationError" e.message

end BindGen

import BindGen.Emitter.Catalog
import BindGen.Source.Load

/-!
# Generation

A run of the generator loads sources and writes their bindings: source by source, and for each of
them in the order in which the languages were asked for. A language that has no emitter stops the
run before anything is loaded; one that needs a dynamic library stops it when its turn comes, if
there is none.
-/

namespace BindGen

/-- What to generate. -/
structure GenerationRequest where
  load : LoadRequest
  languages : List String
  /-- the directory for the bindings -/
  directory : Path
  /-- whether formatters are run on the bindings -/
  format : Bool

/-- Why a run of the generator fails. -/
inductive GenerationError where
  | noLanguage
  | unknownLanguages (unknown known : List String)
  | needsDynamicLibrary (language : String) (library : Path)
  | load (e : LoadError)
  | directory (e : FileError)
  /-- an emitter could not write its files -/
  | unwritten (language : String) (crate : Value) (e : FileError)
  | emitter (e : EmitError)

namespace GenerationError

/-- The wording of an error. -/
def message : GenerationError → String
  | noLanguage => "At least one target language is required"
  | unknownLanguages unknown known =>
    let unknown := ", ".intercalate unknown
    let known := ", ".intercalate known
    s!"No emitter for target language(s) {unknown} (available: {known})"
  | needsDynamicLibrary language library =>
    s!"Generate bindings for {language} requires a cdylib, but {library.text} was given"
  | load e => e.message
  | directory e => e.message
  | unwritten language crate e =>
    s!"Failed to write {language} bindings for {crate.display}: {e.message}"
  | emitter e => e.message

end GenerationError

namespace Generation

/-- The emitter for a language, which is looked up in lower case. -/
def emitterFor? (catalog : Catalog) (language : String) : Option Emitter :=
  catalog.find? (emitterKey language)

/-- The languages without an emitter, in order, each of them once. -/
def unknownLanguages (catalog : Catalog) (languages : List String) : List String :=
  Scalar.sortTexts ((languages.filter fun l => (emitterFor? catalog l).isNone).eraseDups)

/-- The emitters for all languages, with the languages as they were asked for. Models
`BindingGenerator._resolve_emitters`. -/
def resolve (catalog : Catalog) (languages : List String) :
    Except GenerationError (List (String × Emitter)) :=
  if languages.isEmpty then .error .noLanguage
  else
    match unknownLanguages catalog languages with
    | [] => .ok (languages.filterMap fun l => (emitterFor? catalog l).map fun e => (l, e))
    | unknown => .error (.unknownLanguages unknown catalog.names)

/-- A source and an emitter for it, with the language as it was asked for. -/
structure Job where
  source : Source
  language : String
  emitter : Emitter

/-- The jobs of a run in their order. -/
def jobs (sources : List Source) (emitters : List (String × Emitter)) : List Job :=
  sources.flatMap fun s => emitters.map fun (language, e) => ⟨s, language, e⟩

/-- Whether a job can be done with the kind of library at hand. -/
def Job.fits (job : Job) (library : Path) : Bool :=
  (Library.dynamicName? library).isSome || !job.emitter.requiresCdylib

/-- How the failure of an emitter counts. -/
def failure (job : Job) : EmitError → GenerationError
  | .file e =>
    if e.reason.isSystem then .unwritten job.emitter.language job.source.crateName e
    else .emitter (.file e)
  | e => .emitter e

/-- Lets the emitter of a job write the bindings. Models `BindingGenerator._emit`. -/
def emit (r : GenerationRequest) (job : Job) : Run GenerationError Unit := do
  let crate := job.source.crateName
  let language := job.emitter.language
  Run.log Source.part .debug s!"Emitting {language} bindings for {crate.display}"
  Run.record ⟨language, crate, r.directory, r.format⟩
  let _ ← Run.lift (failure job)
    (job.emitter.write ⟨job.source.interface, job.source.settings, r.directory, r.format⟩)

/-- Does a job, if it can be done with the library of the run. -/
def perform (r : GenerationRequest) (job : Job) : Run GenerationError Unit :=
  if job.fits r.load.library then emit r job
  else throw (.needsDynamicLibrary job.language r.load.library)

/-- Runs the generator with a catalog and gives the sources. Models
`BindingGenerator.generate_bindings`. -/
def run (catalog : Catalog) (r : GenerationRequest) : Run GenerationError (List Source) := do
  let emitters ← Run.ofExcept (resolve catalog r.languages)
  let sources ← Run.lift .load (Source.load r.load)
  Run.lift .directory (Run.makeDirectories r.directory)
  (jobs sources emitters).forM (perform r)
  return sources

end Generation
end BindGen

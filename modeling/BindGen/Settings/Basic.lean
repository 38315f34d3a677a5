import BindGen.Interface.Basic
import BindGen.Settings.Merge
import BindGen.File.Error

/-!
# Settings

The generation settings of one crate: shared keys, and a table of keys for each language. A language
sees the shared keys with its own table laid over them. Names that a run finds out fill keys that
are still unset. Parts that a settings file writes once and uses several times are kept as links.
-/

namespace BindGen

/-- The settings of a crate. Models `Config`. -/
structure Settings where
  /-- the directory that the settings were loaded for -/
  root : Option Path
  /-- the keys of all languages -/
  shared : Table Value
  /-- the keys of each language: a table, or a link to one -/
  bindings : Table Value
  /-- what the links among the keys stand for -/
  links : Links
  /-- the crates whose settings filled gaps, in order -/
  inheritedFrom : List Scalar
  /-- whether gaps were filled from other crates -/
  inherited : Bool

/-- Why settings cannot be loaded or completed. -/
inductive SettingsError where
  | alreadyInherited
  | overrideNotFound (file : String)
  | noHome
  | file (e : FileError)
  | notText
  | unreadable (file : String)
  | notTable (name : String)
  | bindingsNotTable
  | languageNotTable (language : String)
  | fault (f : Fault)

namespace SettingsError

/-- The wording of an error. -/
def message : SettingsError → String
  | alreadyInherited => "Dependency configs were already applied to this config"
  | overrideNotFound name => s!"Config override {name} not found"
  | noHome => "Could not determine home directory."
  | file e => e.message
  | notText => "the file is not a text"
  | unreadable name => s!"Failed to parse {name}"
  | notTable name => s!"{name} must contain a mapping at the root"
  | bindingsNotTable => "`bindings` must be a table of per-language tables"
  | languageNotTable language => s!"`bindings.{language}` must be a table"
  | fault f => f.message

end SettingsError

namespace Settings

/-- The value under a shared key, or a default. Models `Config.get`. -/
def get (s : Settings) (key : Scalar) (default : Value) : Value :=
  ((Table.find? s.shared key).map s.links.resolve).getD default

/-- A shared key as a text, unless it is unset or null. -/
def nameUnder (s : Settings) (key : String) : Except Fault (Option String) :=
  match s.get key .null with
  | .null => .ok none
  | v => do return some (← v.shown)

/-- The name of the module to generate. Models `Config.module_name`. -/
def moduleName (s : Settings) : Except Fault (Option String) := s.nameUnder "module_name"

/-- The name of the dynamic library to load. Models `Config.cdylib_name`. -/
def cdylibName (s : Settings) : Except Fault (Option String) := s.nameUnder "cdylib_name"

/-- The table of a language. -/
def languageTable (s : Settings) (language : Scalar) : Table Value :=
  ((Table.find? s.bindings language).bind s.links.table?).getD []

/-- The keys that a language sees. Models `Config.bindings_for`. -/
def bindingsFor (s : Settings) (language : String) : Except Fault (Table Value) := do
  let (links, t) ← overlayLinked (s.links, s.shared) (s.links, s.languageTable language)
  return links.resolveTable t

/-- Sets a shared key that is unset. -/
def setNew (s : Settings) (key : String) (v : Value) : Settings :=
  { s with shared := Table.putNew s.shared key v }

/-- Takes the name of the dynamic library. Models `Config.update_from_cdylib_name`. -/
def fromCdylibName (s : Settings) (name : String) : Settings := s.setNew "cdylib_name" name

/-- Takes the names of an interface. -/
def fromNames (s : Settings) (crate namespaceName : Value) : Settings :=
  let s := if crate.isTruthy then s.setNew "crate_name" crate else s
  if namespaceName.isTruthy then
    (s.setNew "namespace" namespaceName).setNew "module_name" namespaceName
  else s

/-- Takes the names of an interface. Models `Config.update_from_ci`. -/
def fromInterface (s : Settings) (i : Interface) : Settings :=
  s.fromNames i.crateName i.namespaceName

/-- Without links, a language sees the shared keys under its own table. -/
theorem bindingsFor_plain (s : Settings) (language : String) (h : s.links = #[]) :
    s.bindingsFor language = .ok (overlay s.shared (s.languageTable language)) := by
  simp only [bindingsFor, h, overlayLinked_plain]
  rfl

end Settings
end BindGen

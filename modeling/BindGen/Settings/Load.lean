import BindGen.File.Tree
import BindGen.Product
import BindGen.Settings.Basic
import BindGen.Toml.Document
import BindGen.Yaml.Value

/-!
# Settings files

A crate may keep its settings in a file in its directory, and a run may lay another file over those
of every crate. A file is read as TOML or as YAML, as its name says; a blank one holds no settings.
-/

namespace BindGen.Settings

/-- The names of the files that a crate may keep its settings in; the first one counts. Models
`CONFIG_FILENAMES`. -/
def fileNames : List String :=
  [productName ++ ".toml", "." ++ productName ++ ".yml", "." ++ productName ++ ".yaml"]

/-- The file with the settings of the crate in a directory. Models `find_config_file`. -/
def file? (files : Tree) (crate : Path) : Except FileError (Option Path) :=
  (fileNames.map crate.below).findM? files.isFile

/-- The value that a settings file writes, with what its links stand for. -/
def valueIn (file : Path) (text : List Char) : Except ReadProblem (Value × Links) :=
  if file.suffix = ".toml" then do return (.table (← Toml.read text), #[]) else Yaml.read text

/-- The table that the text of a settings file holds. -/
def tableIn (file : Path) (text : List Char) : Except SettingsError Linked :=
  if Text.allBlank text then .ok (#[], [])
  else
    match valueIn file text with
    | .ok (.null, _) => .ok (#[], [])
    | .ok (v, links) =>
      match links.table? v with
      | some entries => .ok (links, entries)
      | none => .error (.notTable file.name)
    | .error .malformed => .error (.unreadable file.text)
    | .error (.fault f) => .error (.fault f)

/-- The table that a settings file holds. Models `_read_config`. -/
def readFile (files : Tree) (file : Path) : Except SettingsError Linked :=
  match files.read file with
  | .error e => .error (.file e)
  | .ok content =>
    match Tree.textOf? content with
    | some text => tableIn file text
    | none => .error .notText

/-- The tables of the languages, from what stands under their key. -/
def languageTables (links : Links) (v : Value) : Except SettingsError (Table Value) :=
  match v with
  | .null => .ok []
  | v =>
    match links.table? v with
    | none => .error .bindingsNotTable
    | some entries =>
      entries.foldlM (fun tables (language, keys) => do
        let name ← (Value.scalar language).shown.mapError .fault
        if (links.table? keys).isNone then throw (.languageNotTable name)
        return Table.put tables (.text name) keys) []

/-- The settings that a table from a file holds. -/
def ofTable (root : Path) (data : Linked) : Except SettingsError Settings := do
  let (links, entries) := data
  let bindings ← languageTables links ((Table.find? entries "bindings").getD .null)
  return ⟨some root, Table.remove entries "bindings", bindings, links, [], false⟩

/-- A path that names no home directory: those of users are not known. -/
def withoutHome (p : Path) : Except SettingsError Path :=
  if !p.startsAtHome then .ok p
  else if (p.parts.headD "").toList.contains '\x00' then .error (.file (.about .unnameable p))
  else .error .noHome

/-- The directory of a crate, in full. -/
def rootOf (files : Tree) (crate : Path) : Except SettingsError Path := do
  let crate ← withoutHome crate
  if crate.isUnnameable then throw (.file (.about .unnameable crate))
  return files.resolve crate

/-- The settings of the crate in a directory, under an optional file that is laid over them. Models
`load_config`. -/
def load (files : Tree) (crate : Path) (override : Option Path) : Except SettingsError Settings := do
  let root ← rootOf files crate
  let own ← match ← (file? files root).mapError .file with
    | some file => readFile files file
    | none => .ok (#[], [])
  match override with
  | none => ofTable root own
  | some file =>
    let file ← withoutHome file
    if !(← (files.has file).mapError .file) then throw (.overrideNotFound file.text)
    ofTable root (← (overlayLinked own (← readFile files file)).mapError .fault)

end BindGen.Settings

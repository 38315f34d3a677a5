import BindGen.File.Path
import BindGen.Metadata.Wire
import BindGen.Settings.Load
import BindGen.Source.Basic
import BindGen.Udl.File

/-!
# Loading sources

A compiled library carries the metadata of all crates that are linked into it. Loading finds the
package of each crate, folds its interface from its definition file and its metadata, loads its
settings, lets sources inherit from their dependencies and narrows the list to the crate that was
asked for.

The name of a dynamic library, as it is loaded at run time, is the name of its file without the
prefix `lib` and without the extension. Files with another extension are not dynamic libraries.
-/

namespace BindGen

namespace Library

/-- The extensions of dynamic libraries. Models `CDYLIB_EXTENSIONS`. -/
def dynamicExtensions : List String := [".so", ".dll", ".dylib"]

/-- A file name without the prefix of libraries, if it has one. -/
def withoutPrefix (name : List Char) : List Char :=
  (Text.afterPrefix? "lib".toList name).getD name

/-- The name of the dynamic library that a file holds, if its name is that of one. Models
`calc_cdylib_name`. -/
def dynamicName? (file : Path) : Option String :=
  let name := withoutPrefix file.name.toList
  dynamicExtensions.findSome? fun extension =>
    match Text.beforeSuffix? extension.toList name with
    | some (c :: stem) => some (String.ofList (c :: stem))
    | _ => none

end Library

/-- What to load: the crates in a library, or one of them. -/
structure LoadRequest where
  library : Path
  crate : Option String
  /-- the settings file laid over those of the crates -/
  override : Option Path
  /-- the manifest of the build whose packages count -/
  manifest : Option Path

/-- Why sources are not loaded. -/
inductive LoadError where
  | graph (e : GraphError)
  | unreadable (library : Path) (e : FileError)
  | unnameable (e : FileError)
  | noMetadata (library : Path)
  | extraction (library : Path) (e : ExtractionError)
  | grouping (e : GroupingError)
  | attribution (e : AttributionError)
  | definition (e : UdlFileError)
  | conflict (e : ConflictError)
  | settings (e : SettingsError)
  | selection (e : SelectionError)

namespace LoadError

/-- The wording of an error. -/
def message : LoadError → String
  | graph e => e.message
  | unreadable library e => s!"Unable to read {library.text}: {e.message}"
  | unnameable e => e.message
  | noMetadata library => s!"No {productName} metadata found in {library.text}"
  | extraction library e => e.message library.text
  | grouping e => e.message
  | attribution e => e.message
  | definition e => e.message
  | conflict e => e.message
  | settings e => e.message
  | selection e => e.message

end LoadError

namespace Source

/-- The part of the program that messages about loading come from. -/
def part : String := "library_mode"

/-- The metadata items that a library carries. Models `extract_from_library`. -/
def itemsOf (library : Path) (content : Bytes) : Except LoadError (List Item) :=
  match Wire.extract content with
  | .error e => .error (.extraction library e)
  | .ok [] => .error (.noMetadata library)
  | .ok items => .ok items

/-- The failure to read a library. -/
def unread (library : Path) (e : FileError) : LoadError :=
  if e.reason.isSystem then .unreadable library e else .unnameable e

/-- Reads the metadata items that a library carries. -/
def readItems (library : Path) : Run LoadError (List Item) := do
  let content ← Run.orElse (unread library) ((← Run.files).read library)
  let items ← Run.ofExcept (itemsOf library content)
  Run.log "metadata.extractor" .debug
    s!"Extracted {items.length} metadata records from {library.text}"
  return items

/-- The interface of a crate: what its definition file declares, then what its metadata declare. -/
def interfaceOf (declared : Option Group) (g : Group) : Except ConflictError Interface :=
  (declared.toList ++ [g]).foldlM Interface.fold Interface.empty

/-- The settings of a crate with the names that are known from the library and the interface. -/
def named (s : Settings) (dynamicName : Option String) (i : Interface) : Settings :=
  let s := match dynamicName with
    | some name => s.fromCdylibName name
    | none => s
  s.fromInterface i

/-- Makes the source of a crate from its group. -/
def ofGroup (r : LoadRequest) (packages : List Package) (g : Group) : Run LoadError Source := do
  let crate := g.crateName
  let package ← Run.orElse .attribution (Package.exposing packages crate)
  let files ← Run.files
  let declared ← Run.orElse .definition (Udl.groupFor files g.items package.root crate)
  if declared.isSome then Run.log part .debug s!"Loaded UDL metadata for {crate.display}"
  let interface ← Run.orElse .conflict (interfaceOf declared g)
  let settings ← Run.orElse .settings (Settings.load files package.root r.override)
  return ⟨package, crate, interface, named settings (Library.dynamicName? r.library) interface⟩

/-- Makes the sources of all crates in a library, without inheritance. Models
`BindingGenerator.find_sources`. -/
def find (r : LoadRequest) (packages : List Package) : Run LoadError (List Source) := do
  let items ← readItems r.library
  let groups ← Run.orElse .grouping (Grouping.groups items)
  Run.log part .debug s!"Found {groups.length} components in {r.library.text}"
  groups.mapM (ofGroup r packages)

/-- Loads sources. Models `BindingGenerator.load_sources`. -/
def load (r : LoadRequest) : Run LoadError (List Source) := do
  let library := r.library.text
  Run.log part .info s!"Loading components from {library}"
  let packages ← Run.lift .graph (Package.listed r.manifest)
  Run.log part .debug s!"Build graph lists {packages.length} packages"
  if (Library.dynamicName? r.library).isNone then
    Run.log part .debug s!"{library} is not a dynamic library"
  let sources ← Run.orElse .settings (inheritAll (← find r packages))
  let selected ← Run.orElse .selection (select sources r.crate library)
  Run.log part .debug s!"Selected {selected.length} of {sources.length} sources"
  return selected

end Source
end BindGen

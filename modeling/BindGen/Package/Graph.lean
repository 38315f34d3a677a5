import BindGen.File.Path
import BindGen.Json.Reader
import BindGen.Run.Workspace
import BindGen.Value.Fault

/-!
# The package graph

The packages of a build, with the targets that each of them exposes and the packages that it depends
on. Crates are named after targets, with underscores for hyphens. The packages are listed by a
command, whose output is read as JSON. A command that cannot be started or fails, and an output that
is no listing, are errors of the query.
-/

namespace BindGen

/-- The crate named after a package or target. Models `normalise_crate_name`. -/
def crateIdentity (name : String) : String :=
  String.ofList (name.toList.map fun c => if c = '-' then '_' else c)

/-- A target that a package exposes. Models `TargetRecord`. -/
structure Target where
  name : String
  kinds : List Value

namespace Target

/-- The crate that a target of this name builds. -/
def crateName (t : Target) : String := crateIdentity t.name

end Target

/-- A package that another one depends on. Models `DependencyRecord`. -/
structure Dependency where
  name : String
  kind : Value

/-- A package of the build. Models `PackageRecord`. -/
structure Package where
  name : String
  version : String
  manifest : Path
  dependencies : List Dependency
  targets : List Target

/-- Why there are no packages. -/
inductive GraphError where
  /-- the query failed -/
  | queryFailed (detail : String)
  | invalidJson
  | noPackages
  | malformed (cause : Fault)
  | fault (f : Fault)

namespace GraphError

/-- The wording of an error. -/
def message : GraphError → String
  | queryFailed detail => s!"error running cargo metadata: {detail}"
  | invalidJson => "cargo metadata returned invalid JSON"
  | noPackages => "cargo metadata output has no `packages` array"
  | malformed cause => s!"malformed package entry in cargo metadata: {cause.message}"
  | fault f => f.message

end GraphError

namespace Package

/-- The directory of the package. -/
def root (p : Package) : Path := p.manifest.parent

/-- The crates that the package depends on. -/
def dependencyCrates (p : Package) : List String := p.dependencies.map (crateIdentity ·.name)

/-- Whether the package exposes a crate. -/
def exposes (p : Package) (crate : Value) : Bool :=
  p.targets.any fun t => (Value.text t.crateName).same crate

/-- The dependency that a value describes. -/
def dependencyOf (v : Value) : Except Fault Dependency := do
  let name ← v.part "name"
  return ⟨name.display, ← v.optionalPart "kind"⟩

/-- The target that a value describes. -/
def targetOf (v : Value) : Except Fault Target := do
  let name ← v.part "name"
  let kinds ← ((← v.optionalPart "kind").orElse (.list [])).elements
  return ⟨name.display, kinds⟩

/-- The path that a value is. -/
def pathOf (v : Value) : Except Fault Path :=
  match v with
  | .text s => .ok (Path.ofText s)
  | .scalar (.broken _) => .ok (Path.ofText v.display)
  | v => .error (.notPath v.typeName)

/-- The package that an entry of a listing describes. Models `_package_from_dict`. -/
def ofEntry (entry : Value) : Except Fault Package := do
  let dependencies ← ((← entry.optionalPart "dependencies").orElse (.list [])).elements
  let dependencies ← dependencies.mapM dependencyOf
  let targets ← ((← entry.optionalPart "targets").orElse (.list [])).elements
  let targets ← targets.mapM targetOf
  let name ← entry.part "name"
  let version := match entry with
    | .table entries => (Table.find? entries "version").getD "0.0.0"
    | _ => "0.0.0"
  let manifest ← pathOf (← entry.part "manifest_path")
  return ⟨name.display, version.display, manifest, dependencies, targets⟩

/-- The packages that a listing describes. An entry without an operation that it needs is not
reported as a malformed entry but as the fault itself. Models `parse_packages`. -/
def listOf (listing : Value) : Except GraphError (List Package) :=
  match listing with
  | .table entries =>
    match Table.find? entries "packages" with
    | some (.list packages) => packages.mapM fun entry =>
      (ofEntry entry).mapError fun f => if f.kind = .operation then .fault f else .malformed f
    | _ => .error .noPackages
  | _ => .error .noPackages

end Package

/-- Why a crate belongs to no single package. -/
inductive AttributionError where
  | notFound (crate : Value)
  | ambiguous (crate : Value) (packages : List String)

namespace AttributionError

/-- The wording of an error. -/
def message : AttributionError → String
  | notFound crate => s!"cargo metadata returned 0 packages for crate name {crate.display}"
  | ambiguous crate packages =>
    s!"cargo metadata returned {packages.length} packages for crate name {crate.display} "
      ++ "(" ++ ", ".intercalate packages ++ ")"

end AttributionError

namespace Package

/-- The one package that exposes a crate. Models `find_package_by_crate_name`. -/
def exposing (packages : List Package) (crate : Value) : Except AttributionError Package :=
  match packages.filter (·.exposes crate) with
  | [] => .error (.notFound crate)
  | [p] => .ok p
  | several => .error (.ambiguous crate (Scalar.sortTexts (several.map (·.name))))

/-- The program that lists packages. -/
def lister : String := "cargo"

/-- The command that lists the packages of the build of a manifest, or of the working directory. -/
def listingCommand (manifest : Option Path) : List String :=
  [lister, "metadata", "--format-version", "1"]
    ++ (manifest.map fun p => ["--manifest-path", p.text]).getD []

/-- How the failure of a listing is described: by its complaint, or by its status if it has none.
Models `_describe`. -/
def describeFailure (status : Int) (complaint : Option String) : String :=
  match Text.trim (complaint.getD "").toList with
  | [] => s!"exit status {status}"
  | text => String.ofList text

/-- The packages that the output of a listing describes. -/
def ofOutput (output : String) : Except GraphError (List Package) :=
  match Json.read output with
  | .ok listing => listOf listing
  | .error .malformed => .error .invalidJson
  | .error (.hugeInteger digits) => .error (.fault (.hugeInteger digits))
  | .error .endless => .error (.fault .endless)

/-- The packages of a listing that ended in a certain way. -/
def ofReply : ProgramReply → Except GraphError (List Package)
  | .finished output => ofOutput output
  | .missing => .error (.queryFailed (Command.missing lister).message)
  | .failed status complaint => .error (.queryFailed (describeFailure status complaint))

/-- Lists the packages of the build of a manifest, or of the working directory. Models
`CargoMetadata.packages`. -/
def listed (manifest : Option Path) : Run GraphError (List Package) := do
  let command := listingCommand manifest
  let line := " ".intercalate command
  Run.log "buildgraph" .debug s!"Querying build graph: {line}"
  Run.ofExcept (ofReply (← Run.start command))

end Package
end BindGen

import BindGen.Package.Graph
import BindGen.Settings.Inheritance

/-!
# Sources

A source is one crate to generate bindings for: the package it belongs to, its interface and its
settings. Sources inherit settings from the sources that they directly depend on, all of them from
the settings that were there before the first one inherited. A run may be narrowed to one crate.
-/

namespace BindGen

/-- One crate to generate bindings for. Models `Source`. -/
structure Source where
  package : Package
  crateName : Value
  interface : Interface
  settings : Settings

/-- Why the crate that a run is narrowed to is not there. -/
inductive SelectionError where
  | notFound (crate : String) (library : Option String)
  | ambiguous (count : Nat) (crate : String) (library : Option String)

namespace SelectionError

private def location : Option String → String
  | some library => s!" in {library}"
  | none => ""

/-- The wording of an error. -/
def message : SelectionError → String
  | notFound crate library => s!"Crate {crate} not found{location library}"
  | ambiguous count crate library => s!"{count} crates named {crate} found{location library}"

end SelectionError

namespace Source

/-- Whether the first source directly depends on the second. -/
def dependsOn (s other : Source) : Bool :=
  let crates := s.package.dependencyCrates
  crates.contains (crateIdentity other.package.name)
    || crates.any fun c => (Value.text c).same other.crateName

/-- The settings of the sources that the source at an index directly depends on, by crate. -/
def dependencySettings (sources : List Source) (index : Nat) (s : Source) :
    Except Fault (Table Settings) :=
  let others := sources.zipIdx.filter fun (other, i) => i != index && s.dependsOn other
  others.foldlM (fun found (other, _) => do
    return Table.put found (← other.crateName.asKey) other.settings) []

/-- The sources after each has inherited from those that it directly depends on. Models
`apply_dependency_configs`. -/
def inheritAll (sources : List Source) : Except SettingsError (List Source) := do
  let plans ← sources.zipIdx.mapM fun (s, i) => do
    return (s, ← (dependencySettings sources i s).mapError .fault)
  plans.mapM fun (s, plan) => do
    return { s with settings := ← s.settings.inherit plan }

/-- The sources of a crate, or all of them. Models `select_sources`. -/
def select (sources : List Source) (crate : Option String) (library : Option String) :
    Except SelectionError (List Source) :=
  match crate with
  | none => .ok sources
  | some crate =>
    match sources.filter fun s => s.crateName.same (.text crate) with
    | [] => .error (.notFound crate library)
    | [s] => .ok [s]
    | several => .error (.ambiguous several.length crate library)

end Source
end BindGen

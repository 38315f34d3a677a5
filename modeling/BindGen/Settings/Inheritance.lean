import BindGen.Settings.Basic

/-!
# Inheritance

A crate takes settings that it leaves unset from the crates that it depends on, crate by crate in
the order of their names. Keys that name a crate itself are never taken. A key for one language is
not taken either if the crate sets that key for all languages and not for this one. Each
dependency's module is recorded, so that generated code can refer to it. All this happens once.
-/

namespace BindGen.Settings

/-- The keys that name a crate itself. Models `IDENTITY_KEYS`. -/
def identityKeys : List String :=
  ["package_name", "module_name", "cdylib_name", "crate_name", "namespace", "external_modules"]

/-- Whether a key names the crate itself. -/
def isIdentityKey (key : Scalar) : Bool := identityKeys.any fun name => (Scalar.text name).same key

/-- The entries that other crates may take. Models `_inheritable`. -/
def inheritable (t : Table Value) : Table Value := t.filter fun (k, _) => !isIdentityKey k

/-- The language keys that a crate takes from a dependency's table, where `own` are the settings
that the crate started with. -/
def inheritedTable (own : Settings) (language : Scalar) (table : Table Value) : Table Value :=
  (inheritable table).filter fun (k, _) =>
    Table.has (own.languageTable language) k || !Table.has own.shared k

/-- Takes shared keys of a dependency. -/
def inheritShared (s dependency : Settings) : Except Fault Settings := do
  let (links, shared) ←
    fillLinked (s.links, s.shared) (dependency.links, inheritable dependency.shared)
  return { s with links, shared }

/-- Takes the keys of a dependency for a language. -/
def inheritLanguage (own dependency s : Settings) (language : Scalar) : Except Fault Settings := do
  let entries := inheritedTable own language (dependency.languageTable language)
  if entries.isEmpty then return s
  let bindings := Table.putNew s.bindings language (.table [])
  let (links, bindings) ←
    fillLinked (s.links, bindings) (dependency.links, [(language, .table entries)])
  return { s with links, bindings }

/-- The name under which the module of a dependency is recorded: its own, else that of its crate. -/
def recordedName (crate : Scalar) (dependency : Settings) : Except Fault Value := do
  match ← dependency.moduleName with
  | some s => return if s.isEmpty then .scalar crate else .text s
  | none => return .scalar crate

/-- Records the module of a dependency, unless something that is no table stands in the way. -/
def recordModule (s : Settings) (crate : Scalar) (dependency : Settings) : Except Fault Settings := do
  let known := "external_modules"
  let shared := Table.putNew s.shared known (.table [])
  if ((Table.find? shared known).bind s.links.table?).isNone then return { s with shared }
  let name ← recordedName crate dependency
  let (links, shared) ← fillLinked (s.links, shared) (#[], [(known, .table [(crate, name)])])
  return { s with links, shared }

/-- Takes the settings of one dependency, where `own` are the settings that the crate started
with. -/
def inheritFrom (own : Settings) (s : Settings) (crate : Scalar) (dependency : Settings) :
    Except Fault Settings := do
  let s ← inheritShared s dependency
  let s ← (Table.keys dependency.bindings).foldlM (inheritLanguage own dependency) s
  let s ← recordModule s crate dependency
  return { s with inheritedFrom := s.inheritedFrom ++ [crate] }

/-- Fills gaps from the settings of dependencies, given by crate. Models
`Config.update_from_dependency_configs`. -/
def inherit (s : Settings) (dependencies : Table Settings) : Except SettingsError Settings := do
  if s.inherited then throw .alreadyInherited
  let sorted ← (sortByKey Prod.fst dependencies).mapError .fault
  let start := { s with inherited := true }
  (sorted.foldlM (fun now (crate, dependency) => inheritFrom s now crate dependency)
    start).mapError .fault

end BindGen.Settings

import BindGen.Emitter.BuiltIn

/-!
# Catalogs of emitters

The emitters that a run can choose from, by name. The built-in languages come first; plugins add
further names in the order in which they are installed and never replace a name that is taken. A
list of enabled names narrows a catalog, and every name in it has to be found.
-/

namespace BindGen

/-- What loading a plugin gives. Models `_coerce_emitter`. -/
inductive Plugin where
  | emitter (e : Emitter)
  | notEmitter
  | broken (reason : String)

/-- Why a catalog cannot be made. -/
inductive CatalogError where
  | broken (plugin reason : String)
  | notEmitter
  | unknownNames (names : List String)

namespace CatalogError

/-- The wording of an error. -/
def message : CatalogError → String
  | broken plugin reason => s!"Failed to load emitter entry point '{plugin}': {reason}"
  | notEmitter => "Emitter entry point must be a BindingEmitter subclass or factory"
  | unknownNames names => "Unknown target languages requested: " ++ ", ".intercalate names

end CatalogError

/-- Emitters by name, in the order in which they were added. -/
abbrev Catalog := List (String × Emitter)

/-- A name as it is looked up: in lower case. -/
def emitterKey (name : String) : String := String.ofList (Text.lower name.toList)

namespace Catalog

/-- Whether a catalog has a name. -/
def has (c : Catalog) (key : String) : Bool := c.any (·.1 == key)

/-- The emitter of a name. -/
def find? (c : Catalog) (key : String) : Option Emitter := c.lookup key

/-- Whether a name is wanted. -/
def wanted (enabled : Option (List String)) (key : String) : Bool :=
  match enabled with
  | none => true
  | some keys => keys.contains key

/-- The built-in emitters that are wanted. -/
def builtIn (enabled : Option (List String)) : Catalog :=
  (Language.all.filter fun l => wanted enabled l.name).map fun l => (l.name, l.style.emitter)

/-- Adds a plugin unless its name is taken or not wanted. -/
def add (enabled : Option (List String)) (c : Catalog) (plugin : String × Plugin) :
    Except CatalogError Catalog :=
  let key := emitterKey plugin.1
  match plugin.2 with
  | .broken reason => .error (.broken plugin.1 reason)
  | .notEmitter =>
    if wanted enabled key && !has c key then .error .notEmitter else .ok c
  | .emitter e => .ok (if wanted enabled key && !has c key then c ++ [(key, e)] else c)

/-- The catalog of the built-in emitters and plugins, narrowed to the enabled names. Models
`discover_emitters`. -/
def discover (enabled : Option (List String)) (plugins : List (String × Plugin)) :
    Except CatalogError Catalog := do
  let keys := enabled.map (·.map emitterKey)
  let c ← plugins.foldlM (add keys) (builtIn keys)
  let missing := Scalar.sortTexts ((keys.getD []).eraseDups.filter fun key => !has c key)
  if missing.all (·.isEmpty) then return c
  throw (.unknownNames missing)

/-- The names in order. -/
def names (c : Catalog) : List String := Scalar.sortTexts (c.map (·.1))

end Catalog
end BindGen

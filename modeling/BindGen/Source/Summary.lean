import BindGen.Interface.Content
import BindGen.Source.Basic

/-!
# Summaries of sources

What a user is told about the sources of a run: a line or a table for each of them, in the order of
their crates.
-/

namespace BindGen

/-- What a user is told about a source. Models `SourceSummary`. -/
structure Summary where
  crate : Value
  package : String
  version : String
  namespaceName : Value
  checksum : String
  inheritedFrom : List String

namespace Summary

/-- The summary of a source. -/
def ofSource (s : Source) : Except Fault Summary := do
  return {
    crate := s.crateName
    package := s.package.name
    version := s.package.version
    namespaceName := s.interface.namespaceName
    checksum := ← s.interface.checksum
    inheritedFrom := s.settings.inheritedFrom.map fun c => (Value.scalar c).display }

/-- The summaries of sources in the order of their crates. Models `_summarise`. -/
def ofSources (sources : List Source) : Except Fault (List Summary) := do
  let keyed ← sources.mapM fun s => do return (← s.crateName.asKey, s)
  (← sortByKey Prod.fst keyed).mapM fun (_, s) => ofSource s

/-- A summary in one line, with the start of the checksum. -/
def line (s : Summary) : String :=
  let start := String.ofList (s.checksum.toList.take 12)
  let inherited := ",".intercalate s.inheritedFrom
  s!"{s.crate.display} ({s.package} {s.version}) namespace={s.namespaceName.display} "
    ++ s!"checksum={start}" ++ (if s.inheritedFrom.isEmpty then "" else s!" inherits={inherited}")

/-- A summary as a table, if its names are texts. -/
def table? (s : Summary) : Option Value :=
  if s.crate.text?.isSome && (s.namespaceName.isNull || s.namespaceName.text?.isSome) then
    some (.table
      [("crate_name", s.crate), ("package", .text s.package), ("namespace", s.namespaceName),
        ("checksum", .text s.checksum), ("inherited_from", .list (s.inheritedFrom.map .text))])
  else none

end Summary
end BindGen

import BindGen.Value.Basic
import BindGen.Value.Fault
import BindGen.Value.Link

/-!
# Merging tables

Two ways to bring a source table into a target. Filling keeps what the target has and takes the rest
from the source; overlaying lets the source win. Both go into tables that stand under the same key
on both sides, at every depth, and both keep the keys of the target in their places.

Where tables have links they may stand in several places. A table that is merged into changes under
its label, so the change shows in every place; what comes from the source is copied key by key.
Without links both are the merges of plain tables.
-/

namespace BindGen.Settings

mutual

/-- The target with the entries of the source that it lacks. Models `_fill`. -/
def fill : Table Value → List (Scalar × Value) → Table Value
  | target, [] => target
  | target, (k, v) :: rest =>
    match Table.find? target k with
    | none => fill (Table.put target k v) rest
    | some (.table inner) => fill (Table.put target k (fillInto inner v)) rest
    | some _ => fill target rest

/-- A table of the target after the value under the same key of the source. -/
def fillInto : Table Value → Value → Value
  | inner, .table entries => .table (fill inner entries)
  | inner, _ => .table inner

end

mutual

/-- The target with the entries of the source in place of its own. Models `_overlay`. -/
def overlay : Table Value → List (Scalar × Value) → Table Value
  | target, [] => target
  | target, (k, v) :: rest =>
    match Table.find? target k with
    | some (.table inner) => overlay (Table.put target k (overlayOn inner v)) rest
    | _ => overlay (Table.put target k v) rest

/-- What stands in place of a table of the target for the value under the same key of the source. -/
def overlayOn : Table Value → Value → Value
  | inner, .table entries => .table (overlay inner entries)
  | _, v => v

end

/-! ## Tables with links -/

/-- What becomes of a value of the target that cannot be merged with the one of the source. -/
inductive Clash where
  | keep
  | replace
deriving DecidableEq

/-- How deep tables are merged. Only tables that hold themselves on both sides go deeper. -/
def mergeDepth : Nat := 1000

/-- Puts a copy of a value of the source into the table under a label. -/
def putCopy (source : Links) (label : Nat) (t : Table Value) (k : Scalar) (v : Value)
    (links : Links) : Links :=
  let (links, copy) := links.adopt source v
  links.setIfInBounds label (.table (Table.put t k copy))

/-- The label of a table that stands in the table under a label; a table without one is given
one. -/
def labelOf (label : Nat) (t : Table Value) (k : Scalar) (v : Value) (links : Links) : Links × Nat :=
  match v with
  | .link inner _ => (links, inner)
  | v =>
    let inner := links.size
    ((links.push v).setIfInBounds label (.table (Table.put t k (.link inner .table))), inner)

/-- Merges entries of the source into the table under a label. -/
def mergeAt (clash : Clash) (source : Links) :
    Nat → Nat → List (Scalar × Value) → Links → Except Fault Links
  | 0, _, _, _ => .error .endless
  | depth + 1, label, entries, links =>
    entries.foldlM (fun links (k, v) =>
      let t := (links.table? (.link label .table)).getD []
      match Table.find? t k with
      | none => .ok (putCopy source label t k v links)
      | some old =>
        match links.table? old, source.table? v with
        | some _, some inner =>
          let (links, place) := labelOf label t k old links
          mergeAt clash source depth place inner links
        | _, _ =>
          match clash with
          | .keep => .ok links
          | .replace => .ok (putCopy source label t k v links)) links

/-- A table with what its links stand for. -/
abbrev Linked := Links × Table Value

/-- The target after entries of the source, where at least one side has links. -/
def mergeLinked (clash : Clash) (target source : Linked) : Except Fault Linked := do
  let label := target.1.size
  let boxed := target.1.push (.table target.2)
  let links ← mergeAt clash source.1 mergeDepth label source.2 boxed
  return (links, (links.table? (.link label .table)).getD [])

/-- The target with the entries of the source that it lacks. Models `_fill`. -/
def fillLinked (target source : Linked) : Except Fault Linked :=
  if target.1.isEmpty && source.1.isEmpty then .ok (#[], fill target.2 source.2)
  else mergeLinked .keep target source

/-- The target with the entries of the source in place of its own. Models `_overlay`. -/
def overlayLinked (target source : Linked) : Except Fault Linked :=
  if target.1.isEmpty && source.1.isEmpty then .ok (#[], overlay target.2 source.2)
  else mergeLinked .replace target source

/-- Without links, overlaying is that of plain tables. -/
@[simp] theorem overlayLinked_plain (target source : Table Value) :
    overlayLinked (#[], target) (#[], source) = .ok (#[], overlay target source) := rfl

end BindGen.Settings

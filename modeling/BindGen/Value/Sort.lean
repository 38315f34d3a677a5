import BindGen.Value.Scalar

/-!
# Sorting by scalars

Keys that are texts or numbers are sorted stably. The float that is not a number comes neither
before nor after any number; where it is among the keys, the place of an item depends on the items
that it is compared with. The run at the start is kept, turned round if it descends, and every
further item goes to the place that halving finds.
-/

namespace BindGen

namespace Sorting

variable {α : Type} (before : α → α → Bool)

/-- The place of an item among sorted ones, between two places. The fuel bounds the number of
comparisons. -/
def placeOf (sorted : List α) (x : α) : Nat → Nat → Nat → Nat
  | 0, low, _ => low
  | fuel + 1, low, high =>
    let middle := low + (high - low) / 2
    match sorted[middle]? with
    | none => low
    | some y =>
      if high ≤ low then low
      else if before x y then placeOf sorted x fuel low middle
      else placeOf sorted x fuel (middle + 1) high

/-- Sorted items with a further one at its place. -/
def insert (sorted : List α) (x : α) : List α :=
  let place := placeOf before sorted x (sorted.length + 1) 0 sorted.length
  sorted.take place ++ x :: sorted.drop place

/-- The longest run of items of which each comes before the one in front of it, or none does, and
the items behind it. -/
def run (descending : Bool) : α → List α → List α × List α
  | _, [] => ([], [])
  | previous, x :: rest =>
    if before x previous = descending then
      let (more, behind) := run descending x rest
      (x :: more, behind)
    else ([], x :: rest)

/-- The items sorted by insertion behind their first run. -/
def byInsertion (items : List α) : List α :=
  match items with
  | first :: second :: rest =>
    let descending := before second first
    let (more, behind) := run before descending first (second :: rest)
    let start := if descending then (first :: more).reverse else first :: more
    behind.foldl (insert before) start
  | items => items

end Sorting

namespace Scalar

/-- Whether the first scalar comes before the second. -/
def lt (a b : Scalar) : Bool := a.order? b == some .lt

/-- Whether the first scalar does not come after the second. -/
def le (a b : Scalar) : Bool := a.order? b != some .gt

end Scalar

/-- The list in the order of its keys; keys that tie keep their places. -/
def sortOn {α : Type} (key : α → Scalar) (items : List α) : List α :=
  if items.any fun x => key x = .float .nan then
    Sorting.byInsertion (fun a b => (key a).lt (key b)) items
  else items.mergeSort fun a b => (key a).le (key b)

end BindGen

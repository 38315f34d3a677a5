import BindGen.Number.Double
import BindGen.Text.Broken
import BindGen.Text.Utf8
import BindGen.Value.Moment

/-!
# Scalars

The values without parts that a settings file, a metadata payload or a package listing can hold, and
the two comparisons on them. `Scalar.same` identifies numbers by their value, whether they are
written as an integer, a float or a truth value; it is equality of a canonical form, hence an
equivalence. `Scalar.order?` compares numbers with numbers and texts with texts, and nothing else
with anything.
-/

namespace BindGen

/-- A value without parts. -/
inductive Scalar where
  | null
  | bool (b : Bool)
  | int (n : Int)
  | float (x : Double)
  | text (s : String)
  | broken (t : BrokenText)
  | bytes (b : Bytes)
  | moment (m : Moment)
deriving DecidableEq

/-- A text is a scalar. -/
instance : Coe String Scalar := ⟨.text⟩

/-- A text as a scalar. -/
def LooseText.scalar : LooseText → Scalar
  | proper s => .text s
  | broken t => .broken t

namespace Scalar

/-- The text that a scalar is, broken or not. -/
def word? : Scalar → Option LooseText
  | text s => some s
  | broken t => some (.broken t)
  | _ => none

/-- What a scalar is identified by: the number it is, else its kind and content. -/
inductive Identity where
  | null
  | integer (n : Int)
  | fraction (x : Double)
  | text (s : String)
  | broken (t : BrokenText)
  | bytes (b : Bytes)
  | moment (m : Moment)
  | instant (t : Int)
deriving DecidableEq

/-- The canonical form of a scalar. -/
def identity : Scalar → Identity
  | null => .null
  | bool b => .integer (if b then 1 else 0)
  | int n => .integer n
  | float x => match x.toInt? with
    | some n => .integer n
    | none => .fraction x
  | text s => .text s
  | broken t => .broken t
  | bytes b => .bytes b
  | moment (.dateTime d c (some offset)) => .instant (Moment.instant d c offset)
  | moment m => .moment m

/-- Whether two scalars are the same value. -/
def same (a b : Scalar) : Bool := a.identity = b.identity

/-- Scalars are the same where they have one identity. -/
theorem same_iff {a b : Scalar} : a.same b = true ↔ a.identity = b.identity := by simp [same]

/-- A scalar is the same as itself. -/
theorem same_refl (a : Scalar) : a.same a = true := by simp [same]

/-- Sameness goes both ways. -/
theorem same_comm (a b : Scalar) : a.same b = b.same a := by simp [same, eq_comm]

/-- Sameness goes on. -/
theorem same_trans {a b c : Scalar} (h : a.same b = true) (h' : b.same c = true) :
    a.same c = true := by simp_all [same]

/-- Texts are the same only if they are equal. -/
@[simp] theorem text_same_text {s t : String} : (text s).same (text t) = decide (s = t) := by
  simp [same, identity]

/-- The quotient that a number is, with the infinities beyond every quotient. -/
inductive Extended where
  | below
  | ratio (num : Int) (den : Nat)
  | above

private def Extended.order : Extended → Extended → Ordering
  | below, below | above, above => .eq
  | below, _ | _, above => .lt
  | _, below | above, _ => .gt
  | ratio a b, ratio c d => compare (a * d) (c * b)

/-- The number that a scalar is. -/
def number? : Scalar → Option Extended
  | bool b => some (.ratio (if b then 1 else 0) 1)
  | int n => some (.ratio n 1)
  | float (.infinite s) => some (if s then .below else .above)
  | float x => x.toRatio?.map fun (n, d) => .ratio n d
  | _ => none

/-- Lists of code points are ordered by the first place where they differ. -/
def orderPoints : List CodePoint → List CodePoint → Ordering
  | [], [] => .eq
  | [], _ :: _ => .lt
  | _ :: _, [] => .gt
  | a :: as, b :: bs => (compare a.val b.val).then (orderPoints as bs)

/-- Texts are ordered by their first differing code point; a text comes after its own prefixes. -/
def orderText (a b : LooseText) : Ordering := orderPoints a.points b.points

/-- Texts in the order of their code points. -/
def sortTexts (ss : List String) : List String :=
  ss.mergeSort fun a b => orderText a b != .gt

/-- The order of two scalars of one kind: numbers, texts, or moments of one form. -/
def order? : Scalar → Scalar → Option Ordering
  | text a, text b => some (orderText a b)
  | text a, broken b => some (orderText a (.broken b))
  | broken a, text b => some (orderText (.broken a) b)
  | broken a, broken b => some (orderText (.broken a) (.broken b))
  | moment (.date a), moment (.date b) => some (compare a.ordinal b.ordinal)
  | moment (.time a), moment (.time b) => some (compare a.sinceMidnight b.sinceMidnight)
  | moment (.dateTime a s none), moment (.dateTime b t none) =>
    some (compare (Moment.instant a s 0) (Moment.instant b t 0))
  | moment (.dateTime a s (some x)), moment (.dateTime b t (some y)) =>
    some (compare (Moment.instant a s x) (Moment.instant b t y))
  | float .nan, b => b.number?.map fun _ => .eq
  | a, float .nan => a.number?.map fun _ => .eq
  | a, b => do return Extended.order (← a.number?) (← b.number?)

/-- Whether a scalar counts as true: it is neither null, false, zero nor empty. -/
def isTruthy : Scalar → Bool
  | null => false
  | bool b => b
  | int n => n != 0
  | float x => !x.isZero
  | text s => !s.isEmpty
  | broken _ => true
  | bytes b => !b.isEmpty
  | moment _ => true

end Scalar
end BindGen

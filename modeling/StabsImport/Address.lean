import StabsImport.Json.Basic
import StabsImport.Ledger

/-!
# Addresses

Addresses are whole numbers without a bound. A document may spell one as a truth value, which is
remembered so that it can be written back the same way, and the end of a range as a floating point
number.
-/

namespace StabsImport

structure Whole where
  value : Int
  isTruth : Bool := false
  deriving DecidableEq, Repr, Inhabited

/-- An address is the same however it is spelled. -/
instance : Key Whole where
  Form := Int
  decideForm := inferInstance
  form := (·.value)

def Whole.ofInt (n : Int) : Whole := { value := n }

@[simp] theorem Whole.value_ofInt (n : Int) : (Whole.ofInt n).value = n := rfl

@[simp] theorem Whole.same_eq (v w : Whole) : Key.same v w = decide (v.value = w.value) := rfl

def Whole.toJson (w : Whole) : Json := if w.isTruth then .bool (w.value != 0) else .int w.value

inductive Bound where
  | whole (w : Whole)
  | real (x : Binary64)
  deriving DecidableEq, Repr, Inhabited

namespace Bound

def ofInt (n : Int) : Bound := .whole (.ofInt n)

def ofJson? : Json → Option Bound
  | .bool b => some (.whole ⟨b.toInt, true⟩)
  | .int n => some (.ofInt n)
  | .real x => some (.real x)
  | _ => none

def toJson : Bound → Json
  | whole w => w.toJson
  | real x => .real x

/-- The whole number a bound is equal to. -/
def whole? : Bound → Option Int
  | whole w => some w.value
  | real x => x.whole?

/-- One less; a truth value turns into a number. -/
def pred : Bound → Bound
  | whole w => .ofInt (w.value - 1)
  | real x => .real x.pred

def compare? : Bound → Bound → Option Ordering
  | whole a, whole b => some (compare a.value b.value)
  | real x, whole b => x.compareInt? b.value
  | whole a, real y => (y.compareInt? a.value).map Ordering.swap
  | real x, real y => x.compare? y

def le (a b : Bound) : Bool :=
  match a.compare? b with
  | some .lt | some .eq => true
  | _ => false

def lt (a b : Bound) : Bool :=
  match a.compare? b with
  | some .lt => true
  | _ => false

@[simp] theorem le_ofInt (a b : Int) : le (.ofInt a) (.ofInt b) = decide (a ≤ b) := by
  by_cases h : a ≤ b
  · rcases Int.lt_or_eq_of_le h with h' | h'
    · simp [le, ofInt, compare?, compare, compareOfLessAndEq, h, h']
    · simp [le, ofInt, compare?, compare, compareOfLessAndEq, h']
  · have h₁ : ¬ a < b := by omega
    have h₂ : ¬ a = b := by omega
    simp [le, ofInt, compare?, compare, compareOfLessAndEq, h, h₁, h₂]

@[simp] theorem lt_ofInt (a b : Int) : lt (.ofInt a) (.ofInt b) = decide (a < b) := by
  by_cases h : a < b
  · simp [lt, ofInt, compare?, compare, compareOfLessAndEq, h]
  · by_cases h' : a = b <;> simp [lt, ofInt, compare?, compare, compareOfLessAndEq, h, h']

end Bound

end StabsImport

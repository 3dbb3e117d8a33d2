import StabsImport.Address
import StabsImport.Fault
import StabsImport.Sorting.Runs
import StabsImport.Text.Surrogate

/-!
# The order of names

Names can be put in order only if all are texts or all are numbers. A name that is not a number, as
a floating point value, comes neither before nor after any other; among names with it the order is
that of insertion.
-/

namespace StabsImport.Program

def isText : Json → Bool
  | .text _ => true
  | _ => false

def isNumber (name : Json) : Bool := (Bound.ofJson? name).isSome

/-- Whether a text does not come after another. -/
def leText : Json → Json → Bool
  | .text s, .text t => Text.leCodes s t
  | _, _ => false

/-- Whether a number comes before another. -/
def ltNumber (a b : Json) : Bool :=
  match Bound.ofJson? a, Bound.ofJson? b with
  | some x, some y => x.lt y
  | _, _ => false

/-- The entries of a table by name. One entry by itself is in order whatever its name. -/
def byName {ν : Type} (l : Ledger Json ν) : Except Fault (List (Json × ν)) :=
  if l.keys.length ≤ 1 || l.keys.all isText then .ok (l.sorted leText)
  else if l.keys.all isNumber then .ok (Sorting.sort (fun a b => ltNumber a.1 b.1) l.entries)
  else .error .wrongKind

end StabsImport.Program

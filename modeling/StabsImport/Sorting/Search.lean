/-!
# Searching a run

How many elements at the start of a list have a property, if those that have it stand before those
that have not. The count is found by looking at few of them. If the elements are not in that order,
which of them are looked at decides what is found.
-/

namespace StabsImport.Sorting

/-- From which end of a list, as it was before, one goes through it. -/
inductive Direction where
  | forward
  | backward
  deriving DecidableEq

/-- Which of so many elements is looked at first: the middle one, or the later of the two in the
middle of the list as it was. -/
def Direction.middle : Direction → Nat → Nat
  | .forward, count => count / 2
  | .backward, count => (count - 1) / 2

theorem Direction.middle_lt (d : Direction) {count : Nat} (h : 0 < count) :
    d.middle count < count := by
  cases d <;> simp only [middle] <;> omega

variable {α : Type}

/-- The count between two bounds, by halves. -/
def countBetween (d : Direction) (has : α → Bool) (l : List α) (low high : Nat) : Nat :=
  if low < high then
    let place := low + d.middle (high - low)
    if l[place]?.any has then countBetween d has l (place + 1) high
    else countBetween d has l low place
  else low
termination_by high - low
decreasing_by all_goals have := d.middle_lt (Nat.sub_pos_of_lt ‹low < high›); omega

/-- Bounds of the count, from leaps of which each is about twice as long as the one before. -/
def boundsFrom (has : α → Bool) (l : List α) (last next : Nat) : Nat × Nat :=
  if h : next < l.length then
    if has l[next] then boundsFrom has l next (2 * next + 1) else (last + 1, next)
  else (last + 1, l.length)
termination_by l.length - next

/-- The count, in leaps from the start and then by halves. -/
def countByLeaps (d : Direction) (has : α → Bool) (l : List α) : Nat :=
  if l.head?.any has then
    let (low, high) := boundsFrom has l 0 1
    countBetween d has l low high
  else 0

end StabsImport.Sorting

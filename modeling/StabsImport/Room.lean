/-!
# Room

How far things can be nested depends on how many calls may be open at once. What is built or read
inside something else takes up some of that room; a room without a number never runs out.
-/

namespace StabsImport

/-- How many more calls may be open at once, if there is a limit. -/
abbrev Room := Option Nat

namespace Room

/-- The room of a process in which only the command itself has been called. -/
def usual : Room := some 996

/-- The room inside so many calls. -/
def inside (r : Room) (calls : Nat) : Room := r.map (· - calls)

/-- Whether so many calls can be open at once. -/
def allows (r : Room) (calls : Nat) : Bool := r.all (calls ≤ ·)

/-- The number of a room; one without a number has as much as is ever asked for. -/
def within (r : Room) (most : Nat) : Nat := r.getD most

@[simp] theorem inside_none (calls : Nat) : inside none calls = none := rfl

@[simp] theorem allows_none (calls : Nat) : allows none calls = true := rfl

theorem allows_of_eq_none {r : Room} (h : r = none) (calls : Nat) : r.allows calls = true := by
  rw [h, allows_none]

theorem inside_inside (r : Room) (a b : Nat) : (r.inside a).inside b = r.inside (a + b) := by
  cases r <;> simp [inside, Nat.sub_sub]

theorem allows_of_le {r : Room} {a b : Nat} (h : r.allows b = true) (hab : a ≤ b) :
    r.allows a = true := by
  cases r with
  | none => rfl
  | some n =>
      simp only [allows, Option.all_some, decide_eq_true_eq] at h ⊢
      omega

/-- What needs some calls inside others has room enough where both fit. -/
theorem allows_inside {r : Room} {a b : Nat} (h : r.allows (a + b) = true) :
    (r.inside a).allows b = true := by
  cases r with
  | none => rfl
  | some n =>
      simp only [allows, inside, Option.map_some, Option.all_some, decide_eq_true_eq] at h ⊢
      omega

end Room

end StabsImport

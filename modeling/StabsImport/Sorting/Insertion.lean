import StabsImport.Sorting.Search

/-!
# Runs and insertion into them

A run is a part of a list that is in order. One starts every list; elements that follow it are put
in one after the other, each where a search by halves leads.
-/

namespace StabsImport.Sorting

variable {α : Type}

/-- The elements that follow one as long as each goes on from the one before it, and the rest. -/
def runAfter (goesOn : α → α → Bool) : α → List α → List α × List α
  | _, [] => ([], [])
  | last, x :: rest =>
      if goesOn last x then
        let (run, left) := runAfter goesOn x rest
        (x :: run, left)
      else ([], x :: rest)

theorem runAfter_append (goesOn : α → α → Bool) (last : α) (l : List α) :
    (runAfter goesOn last l).1 ++ (runAfter goesOn last l).2 = l := by
  induction l generalizing last with
  | nil => rfl
  | cons x rest ih =>
      by_cases h : goesOn last x = true
      · simp [runAfter, h, ih]
      · simp [runAfter, h]

/-- The elements at the start that are in order already, or would be if they were turned round, and
the rest. -/
def firstRun (lt : α → α → Bool) : List α → List α × List α
  | a :: b :: rest =>
      if lt b a then
        let (run, left) := runAfter (fun x y => lt y x) b rest
        ((a :: b :: run).reverse, left)
      else
        let (run, left) := runAfter (fun x y => !lt y x) b rest
        (a :: b :: run, left)
  | l => (l, [])

theorem firstRun_perm (lt : α → α → Bool) (l : List α) :
    ((firstRun lt l).1 ++ (firstRun lt l).2).Perm l := by
  match l with
  | [] => simp [firstRun]
  | [a] => simp [firstRun]
  | a :: b :: rest =>
      simp only [firstRun]
      split
      · exact ((List.reverse_perm _).append_right _).trans (by simp [runAfter_append])
      · simp [runAfter_append]

theorem firstRun_cons_ne_nil (lt : α → α → Bool) (x : α) (l : List α) :
    (firstRun lt (x :: l)).1 ≠ [] := by
  cases l with
  | nil => simp [firstRun]
  | cons y l => simp only [firstRun]; split <;> simp

/-- Puts an element in behind those that it does not come before. -/
def insertByHalves (lt : α → α → Bool) (run : List α) (x : α) : List α :=
  let place := countBetween .forward (fun y => !lt x y) run 0 run.length
  run.take place ++ x :: run.drop place

theorem insertByHalves_perm (lt : α → α → Bool) (run : List α) (x : α) :
    (insertByHalves lt run x).Perm (x :: run) := by
  simp only [insertByHalves]
  exact List.perm_middle.trans (by rw [List.take_append_drop])

theorem foldl_insertByHalves_perm (lt : α → α → Bool) (items run : List α) :
    (items.foldl (insertByHalves lt) run).Perm (run ++ items) := by
  induction items generalizing run with
  | nil => simp
  | cons x items ih =>
      exact (ih _).trans (((insertByHalves_perm lt run x).append_right items).trans
        List.perm_middle.symm)

end StabsImport.Sorting

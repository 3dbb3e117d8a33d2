import StabsImport.Sorting.Search

/-!
# Merging two runs

Two runs that follow each other become one. Elements are taken from the runs one by one until one of
them has won several times in a row; from then on whole stretches are taken, as long as they are
long. The shorter run is gone through from the end at which the other does not lie. Main statement:
`mergeRuns_perm`, what is merged are the elements of both.
-/

namespace StabsImport.Sorting

variable {α : Type}

/-- Two runs on their way to becoming one: what has been taken, last first, and what is left of the
shorter and of the longer run. -/
structure Merge (α : Type) where
  taken : List α
  short : List α
  long : List α

/-- Whether the longer run is the one to take from, where these are next in the runs. -/
def Direction.takesLong (d : Direction) (lt : α → α → Bool) (short long : α) : Bool :=
  match d with
  | .forward => lt long short
  | .backward => lt short long

namespace Merge

def elements (m : Merge α) : List α := m.taken.reverse ++ m.long ++ m.short

/-- What is left goes to the end as it is once one run is used up, or but one element of the shorter
one. -/
def isOver : Merge α → Bool
  | ⟨_, _ :: _ :: _, _ :: _⟩ => false
  | _ => true

def takeShort (m : Merge α) (count : Nat) : Merge α :=
  ⟨(m.short.take count).reverse ++ m.taken, m.short.drop count, m.long⟩

def takeLong (m : Merge α) (count : Nat) : Merge α :=
  ⟨(m.long.take count).reverse ++ m.taken, m.short, m.long.drop count⟩

theorem takeLong_elements (m : Merge α) (count : Nat) :
    (m.takeLong count).elements = m.elements := by
  simp [takeLong, elements]

theorem takeShort_perm (m : Merge α) (count : Nat) :
    (m.takeShort count).elements.Perm m.elements := by
  have split : m.elements =
      m.taken.reverse ++ (m.long ++ (m.short.take count ++ m.short.drop count)) := by
    simp [elements]
  rw [split]
  simp only [takeShort, elements, List.reverse_append, List.reverse_reverse, List.append_assoc]
  refine List.Perm.append_left _ ?_
  simpa only [List.append_assoc] using
    (@List.perm_append_comm _ (m.short.take count) m.long).append_right _

def takeOne (isLong : Bool) (m : Merge α) : Merge α :=
  if isLong then m.takeLong 1 else m.takeShort 1

theorem takeOne_perm (isLong : Bool) (m : Merge α) :
    (m.takeOne isLong).elements.Perm m.elements := by
  cases isLong
  · exact takeShort_perm m 1
  · exact .of_eq (takeLong_elements m 1)

/-- Takes one element after the other until one run has given so many in a row. -/
def oneByOne (takesLong : α → α → Bool) (enough : Nat) : Nat → Bool → Nat → Merge α → Merge α
  | 0, _, _, m => m
  | rounds + 1, side, row, m =>
      match m with
      | ⟨_, s :: _ :: _, t :: _⟩ =>
          let isLong := takesLong s t
          let row := if isLong = side then row + 1 else 1
          let m := m.takeOne isLong
          if enough ≤ row then m else oneByOne takesLong enough rounds isLong row m
      | m => m

theorem oneByOne_perm (takesLong : α → α → Bool) (enough rounds : Nat) (side : Bool) (row : Nat)
    (m : Merge α) : (m.oneByOne takesLong enough rounds side row).elements.Perm m.elements := by
  induction rounds generalizing side row m with
  | zero => exact .refl _
  | succ rounds ih =>
    unfold oneByOne
    split
    · dsimp only
      generalize (if takesLong _ _ = side then row + 1 else 1) = row
      split
      · exact takeOne_perm _ _
      · exact (ih _ _ _).trans (takeOne_perm _ _)
    · exact .refl _

/-- Takes the stretch of one run that comes before the other, and one element of the other. The
number is the length of the stretch. -/
def leap (d : Direction) (takesLong : α → α → Bool) (isLong : Bool) (m : Merge α) :
    Nat × Merge α :=
  match m with
  | ⟨_, s :: _ :: _, t :: _⟩ =>
      if isLong then
        let count := countByLeaps d (takesLong s) m.long
        let m := m.takeLong count
        (count, if m.isOver then m else m.takeOne false)
      else
        let count := countByLeaps d (fun x => !takesLong x t) m.short
        let m := m.takeShort count
        (count, if m.isOver then m else m.takeOne true)
  | m => (0, m)

theorem leap_perm (d : Direction) (takesLong : α → α → Bool) (isLong : Bool) (m : Merge α) :
    (m.leap d takesLong isLong).2.elements.Perm m.elements := by
  unfold leap
  split
  · cases isLong
    · simp only [Bool.false_eq_true, if_false]
      split
      · exact takeShort_perm _ _
      · exact (takeOne_perm _ _).trans (takeShort_perm _ _)
    · simp only [if_true]
      split
      · exact .of_eq (takeLong_elements _ _)
      · exact (takeOne_perm _ _).trans (.of_eq (takeLong_elements _ _))
  · exact .refl _

/-- How long a stretch is for which it is worth leaping. -/
def worthwhile : Nat := 7

/-- Takes stretches, first of the run that lies in front, as long as they are worthwhile. That makes
it easier to begin with the next time, and giving up makes it harder. -/
def leapOn (d : Direction) (takesLong : α → α → Bool) : Nat → Nat → Merge α → Nat × Merge α
  | 0, enough, m => (enough, m)
  | rounds + 1, enough, m =>
      let isLong := decide (d = .backward)
      let (one, m) := m.leap d takesLong isLong
      let (other, m) := m.leap d takesLong !isLong
      if m.isOver then (enough, m)
      else if worthwhile ≤ one || worthwhile ≤ other then
        leapOn d takesLong rounds (max 1 (enough - 1)) m
      else (enough + 1, m)

theorem leapOn_perm (d : Direction) (takesLong : α → α → Bool) (rounds enough : Nat)
    (m : Merge α) : (m.leapOn d takesLong rounds enough).2.elements.Perm m.elements := by
  induction rounds generalizing enough m with
  | zero => exact .refl _
  | succ rounds ih =>
    have both (isLong : Bool) :
        ((m.leap d takesLong isLong).2.leap d takesLong !isLong).2.elements.Perm m.elements :=
      (leap_perm _ _ _ _).trans (leap_perm _ _ _ _)
    unfold leapOn
    dsimp only
    split
    · exact both _
    · split
      · exact (ih _ _).trans (both _)
      · exact both _

/-- Both ways in turn until the merge is over. The number says how many in a row are enough for
leaping. -/
def alternate (d : Direction) (takesLong : α → α → Bool) : Nat → Nat → Merge α → Nat × Merge α
  | 0, enough, m => (enough, m)
  | rounds + 1, enough, m =>
      if m.isOver then (enough, m)
      else
        let size := m.short.length + m.long.length
        let m := m.oneByOne takesLong enough size false 0
        let (enough, m) := m.leapOn d takesLong (if m.isOver then 0 else size) enough
        alternate d takesLong rounds enough m

theorem alternate_perm (d : Direction) (takesLong : α → α → Bool) (rounds enough : Nat)
    (m : Merge α) : (m.alternate d takesLong rounds enough).2.elements.Perm m.elements := by
  induction rounds generalizing enough m with
  | zero => exact .refl _
  | succ rounds ih =>
    unfold alternate
    split
    · exact .refl _
    · exact (ih _ _).trans ((leapOn_perm _ _ _ _ _).trans (oneByOne_perm _ _ _ _ _ _))

end Merge

/-- Merges what overlaps of two runs, neither of them empty. -/
def mergeOverlap (lt : α → α → Bool) (enough : Nat) (a b : List α) : Nat × List α :=
  let finish (d : Direction) (short long : List α) : Nat × List α :=
    let m : Merge α := ⟨[], short, long⟩
    let (enough, m) :=
      (m.takeLong 1).alternate d (d.takesLong lt) (short.length + long.length) enough
    (enough, m.elements)
  if a.length ≤ b.length then finish .forward a b
  else
    let (enough, elements) := finish .backward b.reverse a.reverse
    (enough, elements.reverse)

theorem mergeOverlap_perm (lt : α → α → Bool) (enough : Nat) (a b : List α) :
    (mergeOverlap lt enough a b).2.Perm (a ++ b) := by
  have finish (d : Direction) (rounds : Nat) (short long : List α) :
      (((Merge.mk [] short long).takeLong 1).alternate d (d.takesLong lt) rounds
        enough).2.elements.Perm (long ++ short) :=
    (Merge.alternate_perm _ _ _ _ _).trans
      (.of_eq ((Merge.takeLong_elements _ _).trans (by simp [Merge.elements])))
  unfold mergeOverlap
  dsimp only
  split
  · exact (finish _ _ _ _).trans List.perm_append_comm
  · refine (List.reverse_perm _).trans ((finish _ _ _ _).trans ?_)
    rw [← List.reverse_append]
    exact (List.reverse_perm _).trans List.perm_append_comm

/-- One run out of two. The elements of the first that come before the second stay where they are,
and so do those of the second that come after the first. -/
def mergeRuns (lt : α → α → Bool) (enough : Nat) (a b : List α) : Nat × List α :=
  match b with
  | [] => (enough, a)
  | y :: _ =>
      let before := countByLeaps .forward (fun x => !lt y x) a
      match (a.drop before).getLast? with
      | none => (enough, a ++ b)
      | some x =>
          let after := countByLeaps .backward (fun y => !lt y x) b.reverse
          let overlap := b.take (b.length - after)
          if overlap.isEmpty then (enough, a ++ b)
          else
            let (enough, elements) := mergeOverlap lt enough (a.drop before) overlap
            (enough, a.take before ++ elements ++ b.drop (b.length - after))

theorem mergeRuns_perm (lt : α → α → Bool) (enough : Nat) (a b : List α) :
    (mergeRuns lt enough a b).2.Perm (a ++ b) := by
  unfold mergeRuns
  split
  · simp
  · dsimp only
    split
    · exact .refl _
    · split
      · exact .refl _
      · rename_i rest _ _ _ _
        refine (((mergeOverlap_perm lt enough _ _).append_left _).append_right _).trans ?_
        refine .of_eq ?_
        rw [← List.append_assoc, List.take_append_drop, List.append_assoc, List.take_append_drop]

end StabsImport.Sorting

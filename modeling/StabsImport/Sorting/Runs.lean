import StabsImport.Sorting.Insertion
import StabsImport.Sorting.Merge

/-!
# Sorting by runs

A list is cut into runs, and neighbouring runs are merged, those first that lie deep in the tree
that halves the list again and again. If the comparison is no order, because some elements come neither
before nor after others, this says which list comes out. Main statement: `sort_perm`, it has the
elements of the list given.
-/

namespace StabsImport.Sorting

variable {α : Type}

/-- How long a run is at least, but for the last one: all of a short list; else 32 to 64, such that
about a power of two of them makes up the list. -/
def leastLength (total : Nat) : Nat :=
  let part := Nat.pow 2 (Nat.log2 total - 5)
  (total + part - 1) / part

/-- The first run, made long enough by insertion, and the rest. -/
def longRun (lt : α → α → Bool) (least : Nat) (l : List α) : List α × List α :=
  let (run, rest) := firstRun lt l
  let lacking := least - run.length
  ((rest.take lacking).foldl (insertByHalves lt) run, rest.drop lacking)

theorem longRun_perm (lt : α → α → Bool) (least : Nat) (l : List α) :
    ((longRun lt least l).1 ++ (longRun lt least l).2).Perm l := by
  unfold longRun
  refine ((foldl_insertByHalves_perm lt _ _).append_right _).trans ?_
  rw [List.append_assoc, List.take_append_drop]
  exact firstRun_perm lt l

theorem length_longRun_lt (lt : α → α → Bool) (least : Nat) (x : α) (l : List α) :
    (longRun lt least (x :: l)).2.length < (x :: l).length := by
  have whole := (firstRun_perm lt (x :: l)).length_eq
  have isSome := List.length_pos_iff.2 (firstRun_cons_ne_nil lt x l)
  simp only [longRun, List.length_drop, List.length_append] at whole ⊢
  omega

/-- A run, where it starts in the list, and how deep the boundary behind it lies. -/
structure Run (α : Type) where
  start : Nat
  items : List α
  depth : Nat

/-- How deep the boundary between two runs lies in a list: how often the list is halved until the
middles of the runs are apart. -/
def boundaryDepth (total start first second : Nat) : Nat :=
  let a := 2 * start + first
  let b := a + first + second
  let isApart (depth : Nat) : Bool :=
    a * Nat.pow 2 depth / total != b * Nat.pow 2 depth / total
  ((List.range (Nat.log2 total + 1)).find? isApart).getD 0

/-- The runs that are still apart, last first, and how many in a row are enough for leaping. -/
structure Pending (α : Type) where
  enough : Nat
  runs : List (Run α)

namespace Pending

def elements (p : Pending α) : List α := p.runs.reverse.flatMap Run.items

/-- Merges the last two runs, apart from so many at the end. -/
def mergeLast (lt : α → α → Bool) (p : Pending α) (apartFrom : Nat) : Pending α :=
  match p.runs.drop apartFrom with
  | b :: a :: rest =>
      let (enough, items) := mergeRuns lt p.enough a.items b.items
      ⟨enough, p.runs.take apartFrom ++ { a with items } :: rest⟩
  | _ => p

theorem mergeLast_perm (lt : α → α → Bool) (p : Pending α) (apartFrom : Nat) :
    (p.mergeLast lt apartFrom).elements.Perm p.elements := by
  unfold mergeLast
  split
  · rename_i b a rest h
    have whole : p.runs = p.runs.take apartFrom ++ b :: a :: rest := by
      rw [← h, List.take_append_drop]
    have merged := mergeRuns_perm lt p.enough a.items b.items
    simp only [elements]
    conv => rhs; rw [whole]
    simp only [List.reverse_append, List.reverse_cons, List.append_assoc, List.flatMap_append,
      List.flatMap_cons, List.flatMap_nil, List.append_nil]
    refine List.Perm.append_left _ ?_
    simpa only [List.append_assoc] using merged.append_right _
  · exact .refl _

/-- Merges the last runs as long as the boundary between them lies deeper. -/
def mergeDeeper (lt : α → α → Bool) (depth : Nat) : Nat → Pending α → Pending α
  | 0, p => p
  | rounds + 1, p =>
      match p.runs with
      | _ :: a :: _ =>
          if depth < a.depth then mergeDeeper lt depth rounds (p.mergeLast lt 0) else p
      | _ => p

theorem mergeDeeper_perm (lt : α → α → Bool) (depth rounds : Nat) (p : Pending α) :
    (p.mergeDeeper lt depth rounds).elements.Perm p.elements := by
  induction rounds generalizing p with
  | zero => exact .refl _
  | succ rounds ih =>
    unfold mergeDeeper
    split
    · split
      · exact (ih _).trans (mergeLast_perm lt p 0)
      · exact .refl _
    · exact .refl _

/-- How deep the boundary behind the last run lies. -/
def setDepth (p : Pending α) (depth : Nat) : Pending α :=
  { p with runs := p.runs.modifyHead fun r => { r with depth } }

@[simp] theorem setDepth_elements (p : Pending α) (depth : Nat) :
    (p.setDepth depth).elements = p.elements := by
  obtain ⟨enough, runs⟩ := p
  cases runs <;> simp [setDepth, elements]

def push (p : Pending α) (r : Run α) : Pending α := { p with runs := r :: p.runs }

@[simp] theorem push_elements (p : Pending α) (r : Run α) :
    (p.push r).elements = p.elements ++ r.items := by
  simp [push, elements]

/-- Adds the run that follows. -/
def add (lt : α → α → Bool) (total : Nat) (p : Pending α) (items : List α) : Pending α :=
  match p.runs.head? with
  | none => p.push ⟨0, items, 0⟩
  | some last =>
      let depth := boundaryDepth total last.start last.items.length items.length
      let p := (p.mergeDeeper lt depth p.runs.length).setDepth depth
      p.push ⟨last.start + last.items.length, items, 0⟩

theorem add_perm (lt : α → α → Bool) (total : Nat) (p : Pending α) (items : List α) :
    (p.add lt total items).elements.Perm (p.elements ++ items) := by
  unfold add
  split
  · simp
  · simpa using (mergeDeeper_perm lt _ _ p).append_right items

/-- Merges all that is left; where the run at the end is the longer one, those before it first. -/
def mergeAll (lt : α → α → Bool) : Nat → Pending α → Pending α
  | 0, p => p
  | rounds + 1, p =>
      match p.runs with
      | c :: _ :: a :: _ =>
          let apartFrom := if a.items.length < c.items.length then 1 else 0
          mergeAll lt rounds (p.mergeLast lt apartFrom)
      | _ => p.mergeLast lt 0

theorem mergeAll_perm (lt : α → α → Bool) (rounds : Nat) (p : Pending α) :
    (p.mergeAll lt rounds).elements.Perm p.elements := by
  induction rounds generalizing p with
  | zero => exact .refl _
  | succ rounds ih =>
    unfold mergeAll
    split
    · exact (ih _).trans (mergeLast_perm lt p _)
    · exact mergeLast_perm lt p 0

/-- Adds all runs of a list. -/
def addRuns (lt : α → α → Bool) (total : Nat) (p : Pending α) : List α → Pending α
  | [] => p
  | x :: rest =>
      let cut := longRun lt (leastLength total) (x :: rest)
      addRuns lt total (p.add lt total cut.1) cut.2
termination_by l => l.length
decreasing_by exact length_longRun_lt lt _ x rest

theorem addRuns_perm (lt : α → α → Bool) (total : Nat) (p : Pending α) (l : List α) :
    (p.addRuns lt total l).elements.Perm (p.elements ++ l) := by
  fun_induction addRuns lt total p l with
  | case1 p => simp
  | case2 p x rest cut ih =>
    refine ih.trans (((add_perm lt total p _).append_right _).trans ?_)
    rw [List.append_assoc]
    exact (longRun_perm lt _ (x :: rest)).append_left _

end Pending

/-- The elements of a list in order. -/
def sort (lt : α → α → Bool) (l : List α) : List α :=
  let pending := Pending.addRuns lt l.length ⟨Merge.worthwhile, []⟩ l
  (pending.mergeAll lt pending.runs.length).elements

theorem sort_perm (lt : α → α → Bool) (l : List α) : (sort lt l).Perm l :=
  (Pending.mergeAll_perm lt _ _).trans
    ((Pending.addRuns_perm lt _ _ l).trans (.of_eq (by simp [Pending.elements])))

end StabsImport.Sorting

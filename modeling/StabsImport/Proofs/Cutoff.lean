import StabsImport.Proofs.Omission

/-!
# Cancelled work

The work is cut between two items and nowhere else. What the stages of functions and of globals leave
when they are cancelled after so many items is what they leave, not cancelled, of a document that
ends there. Main statement: `stages_cutOff`.
-/

namespace StabsImport

/-! ## Monitors -/

namespace Monitor

/-- The monitor after so many checks. -/
def checked (m : Monitor) : Nat → Monitor
  | 0 => m
  | k + 1 => m.check.2.checked k

/-- The first `n` checks find the work not cancelled, and all later ones find it cancelled. -/
def CancelsAfter (m : Monitor) (n : Nat) : Prop := ∀ k, (m.checked k).check.1 = decide (n ≤ k)

def NeverCancels (m : Monitor) : Prop := ∀ k, (m.checked k).check.1 = false

variable {m : Monitor} {n : Nat}

theorem CancelsAfter.now (h : m.CancelsAfter 0) : m.check.1 = true := h 0

theorem CancelsAfter.goes (h : m.CancelsAfter (n + 1)) :
    m.check.1 = false ∧ m.check.2.CancelsAfter n := by
  refine ⟨h 0, fun k => ?_⟩
  have later := h (k + 1)
  rw [checked] at later
  rw [later]
  exact decide_eq_decide.mpr Nat.succ_le_succ_iff

theorem NeverCancels.goes (h : m.NeverCancels) : m.check.1 = false ∧ m.check.2.NeverCancels :=
  ⟨h 0, fun k => h (k + 1)⟩

theorem cancelAfter_cancelsAfter (n : Nat) : (Monitor.cancelAfter {} n).CancelsAfter n := by
  induction n with
  | zero =>
      have stays (k : Nat) : (Monitor.checked ⟨some 0, true⟩ k).check.1 = true := by
        induction k with
        | zero => rfl
        | succ k ih => exact ih
      intro k
      cases k with
      | zero => rfl
      | succ k => exact stays k
  | succ n ih =>
      intro k
      cases k with
      | zero => rfl
      | succ k => exact (ih k).trans (decide_eq_decide.mpr Nat.succ_le_succ_iff.symm)

theorem neverCancels_default : NeverCancels {} := by
  intro k
  induction k with
  | zero => rfl
  | succ k ih => exact ih

end Monitor

namespace Import

open Document (FunctionDefinition SourceFile Variable)

/-- The sessions are of two documents with the same types, and each has its own monitor. -/
structure Session.Beside (m m' : Monitor) (s s' : Session) : Prop where
  rest : s' = { s with document := s'.document, monitor := m' }
  monitor : s.monitor = m
  types : s'.document.types = s.document.types
  numbers : s'.document.files.map (·.typeNumbers) = s.document.files.map (·.typeNumbers)

/-- Both end in the same way, and leave the same but for the document and the monitor. -/
def SameEnd {α : Type} (x x' : Except Fault α × Session) : Prop :=
  x'.1 = x.1 ∧ x'.2 = { x.2 with document := x'.2.document, monitor := x'.2.monitor }

variable {m m' : Monitor} {s s' : Session} {α : Type} {n : Nat}

namespace Session.Beside

theorem program (h : s.Beside m m' s') : s'.program = s.program := by rw [h.rest]

theorem reads (h : s.Beside m m' s') : s.Reads s' where
  types := h.types
  numbers := h.numbers
  program := by rw [h.program]
  knowsPointerSize := by rw [h.rest]
  table := by rw [h.rest]
  isPrepared := by rw [h.rest]
  cache := by rw [h.rest]
  room := by rw [h.rest]

theorem monitor' (h : s.Beside m m' s') : s'.monitor = m' := by rw [h.rest]

theorem alike (h : s.Beside m m' s') :
    s' = { s with document := s'.document, monitor := s'.monitor } := by
  rw [h.rest]

/-- The monitors may be exchanged. -/
theorem watched (h : s.Beside m m' s') (k k' : Monitor) :
    Session.Beside k k' { s with monitor := k } { s' with monitor := k' } :=
  ⟨by rw [h.rest], rfl, h.types, h.numbers⟩

end Session.Beside

instance : Lockstep (Session.Beside m m') where
  reads := Session.Beside.reads
  edits h _ _ := by
    rw [h.program]
    exact ⟨by rw [h.rest], h.monitor, h.types, h.numbers⟩
  caches h _ := ⟨by rw [h.rest], h.monitor, h.types, h.numbers⟩
  tables h _ := ⟨by rw [h.rest], h.monitor, h.types, h.numbers⟩
  prepares h := ⟨by rw [h.rest], h.monitor, h.types, h.numbers⟩
  rooms h _ := ⟨by rw [h.rest], h.monitor, h.types, h.numbers⟩
  reports h _ := ⟨by rw [h.rest], h.monitor, h.types, h.numbers⟩
  counts h _ _ := ⟨by rw [h.rest], h.monitor, h.types, h.numbers⟩

/-! ## Items -/

theorem edit_beside (e : Edit α) : Tracks (Session.Beside m m') (edit e) := fun s s' h => by
  refine ⟨?_, ?_⟩
  · show (e s'.program).1 = (e s.program).1
    rw [h.program]
  · show Session.Beside m m' { s with program := (e s.program).2 }
      { s' with program := (e s'.program).2 }
    rw [h.program]
    exact ⟨by rw [h.rest], h.monitor, h.types, h.numbers⟩

theorem count_beside (f : Stats → Stats) : Tracks (Session.Beside m m') (count f) :=
  .modify fun h => ⟨by rw [h.rest], h.monitor, h.types, h.numbers⟩

theorem takeUpFunction_beside (x : FunctionDefinition × SourceFile) :
    Tracks (Session.Beside m m') (takeUpFunction x) :=
  takeUpFunction_tracks <| .of_all x (fun h => by rw [h.rest]) (fun h => by rw [h.rest])
    edit_beside count_beside

/-! ## Cut work -/

theorem isCancelled_eq (s : Session) :
    isCancelled s = (.ok s.monitor.check.1, { s with monitor := s.monitor.check.2 }) := rfl

section

variable {loop : List α → ImportM Unit} {item : α → ImportM Unit}

/-- Work on one item after the other that looks at the monitor before each does the same, until it
is cancelled, as work on the items up to there. -/
theorem cutOff_of (nil : loop [] = pure ())
    (step : ∀ a rest, loop (a :: rest) = do
      if ← isCancelled then return
      item a
      loop rest)
    (items : ∀ a {m m'}, Tracks (Session.Beside m m') (item a)) (l : List α)
    (cancels : m.CancelsAfter n) (goes : m'.NeverCancels) (h : s.Beside m m' s') :
    SameEnd (loop l s) (loop (l.take n) s') := by
  induction l generalizing n m m' s s' with
  | nil =>
      rw [List.take_nil, nil]
      exact ⟨rfl, h.alike⟩
  | cons a rest ih =>
      have first {k : Monitor} {t : Session} (l : List α) (hk : t.monitor = k) :
          loop (a :: l) t = (if k.check.1 then pure () else do item a; loop l : ImportM Unit)
            { t with monitor := k.check.2 } := by
        rw [step, ← hk]
        rfl
      cases n with
      | zero =>
          rw [first rest h.monitor, cancels.now, if_pos rfl, List.take_zero, nil]
          exact ⟨rfl, h.alike⟩
      | succ n =>
          obtain ⟨runs, cancels⟩ := cancels.goes
          obtain ⟨runs', goes⟩ := goes.goes
          rw [first rest h.monitor, List.take_succ_cons, first _ h.monitor', runs, runs']
          obtain ⟨result, beside⟩ := items a _ _ (h.watched m.check.2 m'.check.2)
          simp only [Bool.false_eq_true, if_false, Runs.bind_apply]
          rcases hs : item a { s with monitor := m.check.2 } with ⟨r, t⟩
          rcases hs' : item a { s' with monitor := m'.check.2 } with ⟨r', t'⟩
          rw [hs, hs'] at result beside
          obtain rfl : r' = r := result
          cases r' with
          | error e => exact ⟨rfl, beside.alike⟩
          | ok _ => exact ih cancels goes beside

/-- A stage takes up the items of its document once the table is there. -/
theorem cutOff_stage {stage : ImportM Unit} {items : Document → List α}
    (whole : stage = do
      prepare
      loop (items (← get).document))
    (nil : loop [] = pure ())
    (step : ∀ a rest, loop (a :: rest) = do
      if ← isCancelled then return
      item a
      loop rest)
    (tracks : ∀ a {m m'}, Tracks (Session.Beside m m') (item a)) (cancels : m.CancelsAfter n)
    (goes : m'.NeverCancels) (h : s.Beside m m' s')
    (first : loop (items s'.document) = loop ((items s.document).take n)) :
    SameEnd (stage s) (stage s') := by
  have left := prepare_leaves s
  have left' := prepare_leaves s'
  obtain ⟨result, beside⟩ := prepare_tracks s s' h
  rw [whole, Runs.bind_apply, Runs.bind_apply]
  rcases hs : prepare s with ⟨r, t⟩
  rcases hs' : prepare s' with ⟨r', t'⟩
  rw [Runs, hs] at left
  rw [Runs, hs'] at left'
  rw [hs, hs'] at result beside
  obtain rfl : r' = r := result
  cases r' with
  | error e => exact ⟨rfl, beside.alike⟩
  | ok _ =>
      show SameEnd (loop (items t.document) t) (loop (items t'.document) t')
      rw [left.1, left'.1, first]
      exact cutOff_of nil step tracks _ cancels goes beside

end

end Import

/-! ## Documents that end early -/

open Import (pick definitions importFunctions importGlobals importFunctionsFrom)

namespace Document

/-- The document with the first of its definitions, so many of all files. -/
def firstFunctions (d : Document) (n : Nat) : Document := d.keeping (List.replicate n true)

/-- The globals of all files. -/
def globals (d : Document) : List Variable := d.files.flatMap (·.globals)

/-- Files with the first of their globals, so many of all. -/
def firstGlobalsOf : Nat → List SourceFile → List SourceFile
  | _, [] => []
  | n, file :: rest =>
      { file with globals := file.globals.take n } ::
        firstGlobalsOf (n - file.globals.length) rest

/-- The document with the first of its globals, so many of all files. -/
def firstGlobals (d : Document) (n : Nat) : Document := { d with files := firstGlobalsOf n d.files }

theorem globals_firstGlobalsOf (n : Nat) (files : List SourceFile) :
    (firstGlobalsOf n files).flatMap (·.globals) = (files.flatMap (·.globals)).take n := by
  induction files generalizing n with
  | nil => exact List.take_nil.symm
  | cons file rest ih =>
      rw [firstGlobalsOf, List.flatMap_cons, List.flatMap_cons, ih, List.take_append]

theorem typeNumbers_firstGlobalsOf (n : Nat) (files : List SourceFile) :
    (firstGlobalsOf n files).map (·.typeNumbers) = files.map (·.typeNumbers) := by
  induction files generalizing n with
  | nil => rfl
  | cons file rest ih => exact congrArg (file.typeNumbers :: ·) (ih _)

end Document

namespace Import

theorem pick_replicate {α : Type} (n : Nat) (l : List α) :
    pick (List.replicate n true) l = l.take n := by
  induction n generalizing l with
  | zero => exact (pick_no_marks l).trans List.take_zero.symm
  | succ n ih =>
      cases l with
      | nil => rfl
      | cons a rest => exact congrArg (a :: ·) (ih rest)

/-- What the later stages leave when they are cancelled after so many items is what they leave, not
cancelled, of a document that ends there. -/
structure CutsOff (s : Session) (n : Nat) (m' : Monitor) : Prop where
  functions : SameEnd (importFunctions s)
    (importFunctions { s with document := s.document.firstFunctions n, monitor := m' })
  globals : SameEnd (importGlobals s)
    (importGlobals { s with document := s.document.firstGlobals n, monitor := m' })

theorem stages_cutOff {s : Session} {n : Nat} {m' : Monitor} (cancels : s.monitor.CancelsAfter n)
    (goes : m'.NeverCancels) : CutsOff s n m' := by
  constructor
  · have beside : s.Beside s.monitor m'
        { s with document := s.document.firstFunctions n, monitor := m' } :=
      ⟨rfl, rfl, rfl, typeNumbers_keepingFiles _ _⟩
    have first : importFunctionsFrom (definitions (s.document.firstFunctions n)) =
        importFunctionsFrom ((definitions s.document).take n) := by
      rw [← pick_replicate]
      exact importFunctionsFrom_restates (definitions_keeping s.document _)
    have whole : importFunctions = (do
        prepare
        importFunctionsFrom (definitions (← get).document)) := rfl
    exact cutOff_stage whole rfl importFunctionsFrom_step (fun x => takeUpFunction_beside x)
      cancels goes beside first
  · have beside : s.Beside s.monitor m'
        { s with document := s.document.firstGlobals n, monitor := m' } :=
      ⟨rfl, rfl, rfl, Document.typeNumbers_firstGlobalsOf n s.document.files⟩
    have first : importGlobalsFrom (s.document.firstGlobals n).globals =
        importGlobalsFrom (s.document.globals.take n) :=
      congrArg importGlobalsFrom (Document.globals_firstGlobalsOf n s.document.files)
    have whole : importGlobals = (do
        prepare
        importGlobalsFrom (← get).document.globals) := rfl
    exact cutOff_stage whole rfl importGlobalsFrom_step (fun v => takeUpGlobal_tracks v) cancels
      goes beside first

theorem stages_cutOff_labelled :
    Monitor.CancelsAfter (Monitor.cancelAfter {} 1) 1 ∧ Monitor.NeverCancels {} ∧
      CutsOff { labelledSession with monitor := Monitor.cancelAfter {} 1 } 1 {} :=
  ⟨Monitor.cancelAfter_cancelsAfter 1, Monitor.neverCancels_default,
    stages_cutOff (Monitor.cancelAfter_cancelsAfter 1) Monitor.neverCancels_default⟩

end Import

end StabsImport

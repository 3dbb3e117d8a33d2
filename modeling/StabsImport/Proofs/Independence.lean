import StabsImport.Proofs.Lockstep

/-!
# What resolution does not depend on

Of the document, resolution reads the table of types and the type numbers of the files. What
functions and globals the files have, and what was reported, counted and checked before, makes no
difference to it.
-/

namespace StabsImport

/-- The second lets work go on for at least as long as the first. -/
structure Monitor.Outlasts (m' m : Monitor) : Prop where
  isCancelled : m'.isCancelled = true → m.isCancelled = true
  remaining : ∀ {n'}, m'.remaining = some n' → ∃ n ≤ n', m.remaining = some n

namespace Monitor.Outlasts

variable {m m' m'' : Monitor}

theorem refl (m : Monitor) : m.Outlasts m := ⟨fun h => h, fun {n} h => ⟨n, Nat.le_refl n, h⟩⟩

theorem trans (h : m''.Outlasts m') (h' : m'.Outlasts m) : m''.Outlasts m where
  isCancelled hc := h'.isCancelled (h.isCancelled hc)
  remaining hr :=
    have ⟨_, hle, hr'⟩ := h.remaining hr
    have ⟨k, hle', hr''⟩ := h'.remaining hr'
    ⟨k, Nat.le_trans hle' hle, hr''⟩

/-- A check uses up some of what is left. -/
theorem check (m : Monitor) : m.Outlasts m.check.2 := by
  unfold Monitor.check
  split
  · exact refl m
  · split
    · exact refl m
    · exact ⟨fun h => by contradiction, fun h => ⟨0, Nat.zero_le _, by assumption⟩⟩
    · next n hn =>
        refine ⟨fun h => h, fun {k} h => ⟨n, ?_, rfl⟩⟩
        obtain rfl : n + 1 = k := Option.some.inj (hn.symm.trans h)
        exact Nat.le_succ n

/-- Where the first may go on, so may the second, and again at least as long. -/
theorem checked (h : m'.Outlasts m) (goes : m.check.1 = false) :
    m'.check.1 = false ∧ m'.check.2.Outlasts m.check.2 := by
  have running : ¬ m.isCancelled = true := fun hc => by
    rw [Monitor.check, if_pos hc] at goes
    cases goes
  have running' : ¬ m'.isCancelled = true := fun hc => running (h.isCancelled hc)
  rw [Monitor.check, if_neg running] at goes
  rw [Monitor.check, if_neg running', Monitor.check, if_neg running]
  cases hr' : m'.remaining with
  | none =>
      refine ⟨rfl, fun hc => absurd hc running', fun hn => ?_⟩
      rw [hr'] at hn
      cases hn
  | some n' =>
      obtain ⟨n, hle, hr⟩ := h.remaining hr'
      rw [hr] at goes ⊢
      obtain rfl | ⟨n, rfl⟩ : n = 0 ∨ ∃ k, n = k + 1 := by
        cases n with
        | zero => exact .inl rfl
        | succ k => exact .inr ⟨k, rfl⟩
      · cases goes
      · obtain ⟨n', rfl⟩ := Nat.exists_eq_succ_of_ne_zero (Nat.ne_of_gt (Nat.lt_of_lt_of_le n.succ_pos hle))
        refine ⟨rfl, fun hc => absurd hc running', fun {k} hk => ⟨n, ?_, rfl⟩⟩
        obtain rfl : n' = k := Option.some.inj hk
        exact Nat.le_of_succ_le_succ hle

end Monitor.Outlasts

namespace Import

/-- Two sessions that resolution cannot tell apart, the second of which may go on at least as
long. -/
structure Session.Like (s s' : Session) : Prop where
  rest : s' = { s with
    document := s'.document, journal := s'.journal, monitor := s'.monitor, stats := s'.stats }
  types : s'.document.types = s.document.types
  numbers : s'.document.files.map (·.typeNumbers) = s.document.files.map (·.typeNumbers)
  monitor : s'.monitor.Outlasts s.monitor

/-- Two ends of a run that differ no more than that. -/
def Agree {α : Type} (x x' : Except Fault α × Session) : Prop := x'.1 = x.1 ∧ x.2.Like x'.2

/-- The action ends in the same way wherever resolution cannot tell the difference. -/
def IsBlind {α : Type} (m : ImportM α) : Prop := ∀ s s' : Session, s.Like s' → Agree (m s) (m s')

variable {α β : Type} {s s' : Session}

namespace Session.Like

theorem refl (s : Session) : s.Like s := ⟨rfl, rfl, rfl, .refl _⟩

theorem trans {s'' : Session} (h : s.Like s') (h' : s'.Like s'') : s.Like s'' where
  rest := by rw [h'.rest, h.rest]
  types := h'.types.trans h.types
  numbers := h'.numbers.trans h.numbers
  monitor := h'.monitor.trans h.monitor

theorem program (h : s.Like s') : s'.program = s.program := by rw [h.rest]
theorem cache (h : s.Like s') : s'.cache = s.cache := by rw [h.rest]
theorem table (h : s.Like s') : s'.table = s.table := by rw [h.rest]
theorem room (h : s.Like s') : s'.room = s.room := by rw [h.rest]
theorem isPrepared (h : s.Like s') : s'.isPrepared = s.isPrepared := by rw [h.rest]
theorem outputLines (h : s.Like s') : s'.outputLines = s.outputLines := by rw [h.rest]
theorem markInlined (h : s.Like s') : s'.markInlined = s.markInlined := by rw [h.rest]

theorem knowsPointerSize (h : s.Like s') : s'.knowsPointerSize = s.knowsPointerSize := by
  rw [h.rest]

/-- Either may report and count more. -/
theorem aside (h : s.Like s') (journal journal' : Journal) (stats stats' : Stats) :
    { s with journal, stats }.Like { s' with journal := journal', stats := stats' } where
  rest := by
    rw [h.rest]
  types := h.types
  numbers := h.numbers
  monitor := h.monitor

end Session.Like

theorem Session.Like.reads (h : s.Like s') : s.Reads s' where
  types := h.types
  numbers := h.numbers
  program := by rw [h.program]
  knowsPointerSize := h.knowsPointerSize
  table := h.table
  isPrepared := h.isPrepared
  cache := h.cache
  room := h.room

instance : Lockstep Session.Like where
  reads := Session.Like.reads
  edits h _ _ := ⟨by rw [h.rest], h.types, h.numbers, h.monitor⟩
  caches h _ := ⟨by rw [h.rest], h.types, h.numbers, h.monitor⟩
  tables h _ := ⟨by rw [h.rest], h.types, h.numbers, h.monitor⟩
  prepares h := ⟨by rw [h.rest], h.types, h.numbers, h.monitor⟩
  rooms h _ := ⟨by rw [h.rest], h.types, h.numbers, h.monitor⟩
  reports h _ := ⟨by rw [h.rest], h.types, h.numbers, h.monitor⟩
  counts h _ _ := ⟨by rw [h.rest], h.types, h.numbers, h.monitor⟩

/-- Any edit comes to the same in both. -/
theorem edit_isBlind (e : Edit α) : IsBlind (edit e) := fun s s' h => by
  show Agree ((e s.program).1, { s with program := (e s.program).2 })
    ((e s'.program).1, { s' with program := (e s'.program).2 })
  rw [h.program]
  exact ⟨rfl, by rw [h.rest], h.types, h.numbers, h.monitor⟩

theorem count_isBlind (f : Stats → Stats) : IsBlind (count f) :=
  Tracks.modify fun {s s'} h => h.aside s.journal s'.journal _ _

end Import

end StabsImport

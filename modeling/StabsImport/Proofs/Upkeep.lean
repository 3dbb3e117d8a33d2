import StabsImport.Proofs.Gains

/-!
# Invariants of an import and what actions hand on

What holds of a session from step to step is told apart from what a step hands on: an action that
keeps an invariant up may answer with types that are there, or have a size, in the arena that it
leaves. `Secures` says both at once, and is put together as the action is.
-/

namespace StabsImport.Import

variable {α β : Type} {fit : Session → Prop} {R : Session → Session → Prop} {s t u : Session}

/-- What sessions have to be like for a relation to lead on from them, to others that are so too. -/
class Upkeep (fit : Session → Prop) (R : Session → Session → Prop) : Prop where
  fits {s t : Session} (h : R s t) : fit t
  refl {s : Session} (hs : fit s) : R s s
  trans {s t u : Session} (hs : fit s) (h : R s t) (h' : R t u) : R s u
  report {s : Session} (hs : fit s) (n : Notice) : R s { s with journal := s.journal.push n }
  inside {s : Session} (hs : fit s) (r : Room) : fit { s with room := r } ∧
    ∀ {t}, R { s with room := r } t → R s { t with room := s.room }

/-- The relation leads on from sessions that are fit. -/
def KeptUp (fit : Session → Prop) (R : Session → Session → Prop) (s t : Session) : Prop :=
  fit s → R s t

instance [Upkeep fit R] : Stepwise (KeptUp fit R) where
  refl _ := Upkeep.refl
  trans h h' hs := Upkeep.trans hs (h hs) (h' (Upkeep.fits (h hs)))
  report _ n hs := Upkeep.report hs n
  inside r h hs :=
    have inside := Upkeep.inside (R := R) hs r
    inside.2 (h inside.1)

/-- From a session that is fit the relation leads on to the one after the action, and with a value
to one whose types go with it. -/
def Secures (fit : Session → Prop) (R : Session → Session → Prop) (s : Session) (m : ImportM α)
    (ok : α → Arena → Prop) : Prop :=
  fit s → Runs m s (fun a t => R s t ∧ ok a t.program.arena) fun _ t => R s t

namespace Secures

variable {m : ImportM α} {f : α → ImportM β} {ok : α → Arena → Prop} {good : β → Arena → Prop}

theorem of (h : Preserves (KeptUp fit R) m) : Secures fit R s m fun _ _ => True := fun hs =>
  Runs.mono (h s) (fun _ _ h => ⟨h hs, trivial⟩) fun _ _ h => h hs

theorem preserves {P : α → Arena → Prop} (h : ∀ s, Secures fit R s m P) :
    Preserves (KeptUp fit R) m := by
  intro s
  by_cases hs : fit s
  · exact Runs.mono (h s hs) (fun _ _ h _ => h.1) fun _ _ h _ => h
  · exact Runs.of_all (fun _ _ h => absurd h hs) fun _ _ h => absurd h hs

theorem mono {wide : α → Arena → Prop} (h : Secures fit R s m ok)
    (sub : ∀ a b, ok a b → wide a b) : Secures fit R s m wide :=
  fun hs => Runs.mono (h hs) (fun _ _ h => ⟨h.1, sub _ _ h.2⟩) fun _ _ h => h

theorem get {f : Session → ImportM α} (h : Secures fit R s (f s) ok) :
    Secures fit R s (get >>= f) ok := h

/-- What is recorded beside the program goes with its types. -/
theorem record {f : Session → Session} {P : Arena → Prop}
    (h : fit s → R s (f s) ∧ P (f s).program.arena) :
    Secures fit R s (modify f : ImportM PUnit) fun _ a => P a := h

theorem edit {e : Edit α} (h : fit s → Runs e s.program
    (fun a q => R s { s with program := q } ∧ ok a q.arena) fun _ q => R s { s with program := q }) :
    Secures fit R s (edit e) ok := by
  intro hs
  rw [runs_edit]
  exact h hs

section

variable [Upkeep fit R]

theorem pure {a : α} (h : ok a s.program.arena) : Secures fit R s (pure a) ok :=
  fun hs => ⟨Upkeep.refl hs, h⟩

theorem throw (e : Fault) : Secures fit R s (throw e : ImportM α) ok := Upkeep.refl

theorem bind (h : Secures fit R s m ok)
    (hf : ∀ a t, R s t → ok a t.program.arena → Secures fit R t (f a) good) :
    Secures fit R s (m >>= f) good := by
  intro hs
  rw [Runs.bind_iff]
  refine Runs.mono (h hs) (fun a t ht => ?_) fun _ _ h => h
  exact Runs.mono (hf a t ht.1 ht.2 (Upkeep.fits ht.1))
    (fun _ _ h => ⟨Upkeep.trans hs ht.1 h.1, h.2⟩) fun _ _ h => Upkeep.trans hs ht.1 h

/-- Nothing is made of the value. -/
theorem after (h : Preserves (KeptUp fit R) m)
    (hf : ∀ a t, R s t → Secures fit R t (f a) good) : Secures fit R s (m >>= f) good :=
  (of h).bind fun a t ht _ => hf a t ht

theorem inside (calls : Nat) (h : ∀ s, Secures fit R s m ok) :
    Secures fit R s (inside calls m) ok := by
  intro hs
  rw [runs_inside]
  split
  · obtain ⟨fits, leave⟩ := Upkeep.inside (R := R) hs (s.room.inside calls)
    exact Runs.mono (h _ fits) (fun _ _ h => ⟨leave h.1, h.2⟩) fun _ _ h => leave h
  · exact Upkeep.refl hs

theorem onTypeFault {handle : Fault → ImportM α} (h : Secures fit R s m ok)
    (hh : ∀ e t, Secures fit R t (handle e) ok) : Secures fit R s (onTypeFault m handle) ok := by
  intro hs
  rw [runs_onTypeFault]
  refine Runs.mono (h hs) (fun _ _ h => h) fun e t ht => ?_
  split
  · exact Runs.mono (hh e t (Upkeep.fits ht)) (fun _ _ h => ⟨Upkeep.trans hs ht h.1, h.2⟩)
      fun _ _ h => Upkeep.trans hs ht h
  · exact ht

theorem onRejection {handle : Fault → ImportM α} (h : Secures fit R s m ok)
    (hh : ∀ e t, Secures fit R t (handle e) ok) : Secures fit R s (onRejection m handle) ok := by
  intro hs
  rw [runs_onRejection]
  refine Runs.mono (h hs) (fun _ _ h => h) fun e t ht => ?_
  split
  · exact Runs.mono (hh e t (Upkeep.fits ht)) (fun _ _ h => ⟨Upkeep.trans hs ht h.1, h.2⟩)
      fun _ _ h => Upkeep.trans hs ht h
  · exact ht

end

end Secures

end StabsImport.Import

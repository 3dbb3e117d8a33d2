import StabsImport.Proofs.Steps

/-!
# What an action leads to

An action of an import leads from a sound session to one after it, given the room it asks for.
`Yields` says so, together with what holds of its value, or of the fault it ends with, and of the
session; its laws put actions together.
-/

namespace StabsImport.Import

variable {α β : Type} {L : Scope} {s s' : Session} {ok : α → Session → Prop}
  {bad : Fault → Session → Prop}

/-- The action leads to a later session, with a value of which this holds or a fault of this
kind. -/
def Yields (L : Scope) (m : ImportM α) (s : Session) (ok : α → Session → Prop)
    (bad : Fault → Session → Prop) : Prop :=
  Runs m s (fun a s' => After L s s' ∧ ok a s') fun e s' => After L s s' ∧ bad e s'

/-- What an action that cannot fail ends with. -/
def NoFault : Fault → Session → Prop := fun _ _ => False

def TypeFault : Fault → Session → Prop := fun e _ => e.isTypeFault = true

namespace Yields

theorem mono {m : ImportM α} {good : α → Session → Prop} {worse : Fault → Session → Prop}
    (h : Yields L m s ok bad) (hok : ∀ a s', After L s s' → ok a s' → good a s')
    (hbad : ∀ e s', After L s s' → bad e s' → worse e s') : Yields L m s good worse :=
  Runs.mono h (fun a s' h => ⟨h.1, hok a s' h.1 h.2⟩) fun e s' h => ⟨h.1, hbad e s' h.1 h.2⟩

theorem weaken {m : ImportM α} (h : Yields L m s ok NoFault) : Yields L m s ok bad :=
  h.mono (fun _ _ _ h => h) fun _ _ _ h => h.elim

theorem of_opening {m : ImportM α} {k : Nat} (h : Yields (L.opening k) m s ok bad) :
    Yields L m s ok bad :=
  Runs.mono h (fun _ _ h => ⟨h.1.of_opening, h.2⟩) fun _ _ h => ⟨h.1.of_opening, h.2⟩

/-- An entry that is open while something is done is not entered by it. -/
theorem keepsOpen {m : ImportM α} {k : Nat} (h : Yields (L.opening k) m s ok bad)
    (hunset : s.typeAt? k = none) :
    Yields L m s (fun a s' => ok a s' ∧ s'.typeAt? k = none) bad :=
  (h.mono (fun _ _ ha hv => ⟨hv, ha.stillOpen (.inl rfl) hunset⟩) fun _ _ _ h => h).of_opening

theorem exists_result {m : ImportM α} (h : Yields L m s ok bad) :
    (∃ a s', m s = (.ok a, s') ∧ After L s s' ∧ ok a s') ∨
      ∃ e s', m s = (.error e, s') ∧ After L s s' ∧ bad e s' := by
  rw [Yields, Runs] at h
  rcases hm : m s with ⟨e | a, s'⟩
  · rw [hm] at h
    exact .inr ⟨e, s', rfl, h⟩
  · rw [hm] at h
    exact .inl ⟨a, s', rfl, h⟩

/-- An action that cannot fail ends with a value. -/
theorem exists_ok {m : ImportM α} (h : Yields L m s ok NoFault) :
    ∃ a s', m s = (.ok a, s') ∧ After L s s' ∧ ok a s' := by
  rcases h.exists_result with h | ⟨_, _, _, _, h⟩
  · exact h
  · exact h.elim

theorem pure (hs : s.Sound) {a : α} (h : ok a s) : Yields L (pure a) s ok bad :=
  ⟨.refl hs, h⟩

theorem throw (hs : s.Sound) {e : Fault} (h : bad e s) :
    Yields L (throw e : ImportM α) s ok bad :=
  ⟨.refl hs, h⟩

theorem bind {m : ImportM α} {f : α → ImportM β} {P : α → Session → Prop}
    {Q : β → Session → Prop} (h : Yields L m s P bad)
    (hf : ∀ a s', After L s s' → P a s' → Yields L (f a) s' Q bad) :
    Yields L (m >>= f) s Q bad := by
  rw [Yields, Runs.bind_iff]
  refine Runs.mono h (fun a s' ha => ?_) fun _ _ h => h
  refine Runs.mono (hf a s' ha.1 ha.2) (fun b t hb => ?_) fun e t he => ?_
  · exact ⟨ha.1.trans hb.1, hb.2⟩
  · exact ⟨ha.1.trans he.1, he.2⟩

theorem get {f : Session → ImportM α} (h : Yields L (f s) s ok bad) :
    Yields L (get >>= f) s ok bad := by
  rw [Yields, Runs.bind_iff, Runs.get_iff]
  exact h

theorem modify {f : Session → Session} (h : After L s (f s)) {P : PUnit → Session → Prop}
    (hp : P ⟨⟩ (f s)) : Yields L (modify f) s P bad :=
  ⟨h, hp⟩

theorem inside {calls : Nat} {m : ImportM α} (hr : s.room.allows calls = true)
    (h : Yields L m { s with room := s.room.inside calls }
      (fun a s' => ok a { s' with room := s.room }) fun e s' => bad e { s' with room := s.room }) :
    Yields L (inside calls m) s ok bad := by
  rw [Yields, runs_inside, if_pos hr]
  exact Runs.mono h (fun _ _ h => ⟨h.1.inside, h.2⟩) fun _ _ h => ⟨h.1.inside, h.2⟩

theorem need (hs : s.Sound) {calls : Nat} (hr : s.room.allows calls = true) :
    Yields L (need calls) s (fun _ s' => s' = s) bad := by
  rw [Yields, runs_need, if_pos hr]
  exact ⟨.refl hs, rfl⟩

theorem pointerSize (hs : s.Sound) :
    Yields L pointerSize s (fun n s' => n = s.program.pointerSize ∧ s' = s) bad := by
  refine Yields.get ?_
  simp only [hs.knowsPointerSize, Bool.not_true, Bool.false_eq_true, if_false]
  exact .pure hs ⟨rfl, rfl⟩

/-- What handles a fault of building a type may make use of what the fault came with. -/
theorem onTypeFault {m : ImportM α} {handle : Fault → ImportM α} {P : Fault → Session → Prop}
    (h : Yields L m s ok P) (hp : ∀ e s', P e s' → e.isTypeFault = true)
    (hh : ∀ e s', After L s s' → P e s' → Yields L (handle e) s' ok bad) :
    Yields L (onTypeFault m handle) s ok bad := by
  rw [Yields, runs_onTypeFault]
  refine Runs.mono h (fun _ _ h => h) fun e s' he => ?_
  rw [if_pos (hp e s' he.2)]
  refine Runs.mono (hh e s' he.1 he.2) (fun b t hb => ?_) fun f t hf => ?_
  · exact ⟨he.1.trans hb.1, hb.2⟩
  · exact ⟨he.1.trans hf.1, hf.2⟩

theorem onTypeFault_of_noFault {m : ImportM α} {handle : Fault → ImportM α}
    (h : Yields L m s ok NoFault) : Yields L (Import.onTypeFault m handle) s ok NoFault := by
  rw [Yields, runs_onTypeFault]
  exact Runs.mono h (fun _ _ h => h) fun _ _ h => h.2.elim

end Yields

end StabsImport.Import

import StabsImport.Import.Session

/-!
# Runs of actions

An action over a state ends with a value or with a fault, and leaves a state either way. A run is
described by what holds of the state in both cases; the laws below take an action apart into its
steps.
-/

namespace StabsImport

/-- What holds of the value and the state an action leaves, and of the fault and the state. -/
def Runs {σ ε α : Type} (m : ExceptT ε (StateM σ) α) (s : σ) (ok : α → σ → Prop)
    (bad : ε → σ → Prop) : Prop :=
  match m s with
  | (.ok a, s') => ok a s'
  | (.error e, s') => bad e s'

namespace Runs

variable {σ ε α β : Type} {s : σ} {ok good : α → σ → Prop} {bad worse : ε → σ → Prop}

theorem mono {m : ExceptT ε (StateM σ) α} (h : Runs m s ok bad)
    (hok : ∀ a s', ok a s' → good a s') (hbad : ∀ e s', bad e s' → worse e s') :
    Runs m s good worse := by
  unfold Runs at h ⊢
  split <;> simp_all

theorem and {m : ExceptT ε (StateM σ) α} (h : Runs m s ok bad) (h' : Runs m s good worse) :
    Runs m s (fun a s' => ok a s' ∧ good a s') fun e s' => bad e s' ∧ worse e s' := by
  unfold Runs at h h' ⊢
  split <;> simp_all

/-- What holds of all that an action can end with holds of what it ends with. -/
theorem of_all {m : ExceptT ε (StateM σ) α} (hok : ∀ a s', ok a s') (hbad : ∀ e s', bad e s') :
    Runs m s ok bad := by
  unfold Runs
  split
  · exact hok _ _
  · exact hbad _ _

/-- An action is known by the value and the state it ends with. -/
theorem eq_ok {m : ExceptT ε (StateM σ) α} {a : α} {t : σ}
    (h : Runs m s (fun b s' => b = a ∧ s' = t) fun _ _ => False) : m s = (.ok a, t) := by
  rw [Runs] at h
  rcases hm : m s with ⟨_ | b, s'⟩
  · rw [hm] at h
    exact h.elim
  · rw [hm] at h
    obtain ⟨rfl, rfl⟩ := h
    rfl

theorem eq_error {m : ExceptT ε (StateM σ) α} {e : ε} {t : σ}
    (h : Runs m s (fun _ _ => False) fun e' s' => e' = e ∧ s' = t) : m s = (.error e, t) := by
  rw [Runs] at h
  rcases hm : m s with ⟨_ | b, s'⟩
  · rw [hm] at h
    obtain ⟨rfl, rfl⟩ := h
    rfl
  · rw [hm] at h
    exact h.elim

/-- An action that cannot fail ends with a value. -/
theorem exists_ok {m : ExceptT ε (StateM σ) α} (h : Runs m s ok fun _ _ => False) :
    ∃ a t, m s = (.ok a, t) ∧ ok a t := by
  rw [Runs] at h
  rcases hm : m s with ⟨_ | a, t⟩
  · rw [hm] at h
    exact h.elim
  · rw [hm] at h
    exact ⟨a, t, rfl, h⟩

theorem exists_error {m : ExceptT ε (StateM σ) α} (h : Runs m s (fun _ _ => False) bad) :
    ∃ e t, m s = (.error e, t) ∧ bad e t := by
  rw [Runs] at h
  rcases hm : m s with ⟨e | _, t⟩
  · rw [hm] at h
    exact ⟨e, t, rfl, h⟩
  · rw [hm] at h
    exact h.elim

theorem of_eq {m : ExceptT ε (StateM σ) α} {a : α} {t : σ} (h : m s = (.ok a, t)) (ha : ok a t) :
    Runs m s ok bad := by
  rw [Runs, h]
  exact ha

/-- What holds of the state an action leaves either way. -/
theorem snd {m : ExceptT ε (StateM σ) α} {P : σ → Prop}
    (h : Runs m s (fun _ t => P t) fun _ t => P t) : P (m s).2 := by
  rw [Runs] at h
  rcases hm : m s with ⟨_ | _, t⟩ <;> rw [hm] at h <;> exact h

theorem self (m : ExceptT ε (StateM σ) α) (s : σ) :
    Runs m s (fun a t => m s = (.ok a, t)) fun e t => m s = (.error e, t) := by
  rw [Runs]
  rcases m s with ⟨_ | _, _⟩ <;> rfl

@[simp] theorem pure_iff (a : α) :
    Runs (pure a : ExceptT ε (StateM σ) α) s ok bad ↔ ok a s := Iff.rfl

@[simp] theorem throw_iff (e : ε) :
    Runs (throw e : ExceptT ε (StateM σ) α) s ok bad ↔ bad e s := Iff.rfl

theorem bind_apply (m : ExceptT ε (StateM σ) α) (f : α → ExceptT ε (StateM σ) β) (s : σ) :
    (m >>= f) s =
      match m s with
      | (.ok a, s') => f a s'
      | (.error e, s') => (.error e, s') := by
  show ExceptT.bindCont f (m s).1 (m s).2 = _
  rcases m s with ⟨_ | _, _⟩ <;> rfl

@[simp] theorem bind_iff (m : ExceptT ε (StateM σ) α) (f : α → ExceptT ε (StateM σ) β)
    {ok : β → σ → Prop} :
    Runs (m >>= f) s ok bad ↔ Runs m s (fun a s' => Runs (f a) s' ok bad) bad := by
  simp only [Runs, bind_apply]
  rcases m s with ⟨_ | _, _⟩ <;> rfl

theorem bind_congr {m : ExceptT ε (StateM σ) α} {f g : α → ExceptT ε (StateM σ) β}
    (h : Runs m s (fun a _ => f a = g a) fun _ _ => True) : (m >>= f) s = (m >>= g) s := by
  rw [Runs] at h
  rw [bind_apply, bind_apply]
  rcases hm : m s with ⟨_ | a, t⟩
  · rfl
  · rw [hm] at h
    exact congrFun h t

@[simp] theorem map_iff (m : ExceptT ε (StateM σ) α) (f : α → β) {ok : β → σ → Prop} :
    Runs (f <$> m) s ok bad ↔ Runs m s (fun a s' => ok (f a) s') bad := by
  rw [← bind_pure_comp]
  simp only [bind_iff, pure_iff]

@[simp] theorem get_iff {ok : σ → σ → Prop} :
    Runs (get : ExceptT ε (StateM σ) σ) s ok bad ↔ ok s s := Iff.rfl

@[simp] theorem set_iff (t : σ) {ok : PUnit → σ → Prop} :
    Runs (set t : ExceptT ε (StateM σ) PUnit) s ok bad ↔ ok ⟨⟩ t := Iff.rfl

@[simp] theorem modify_iff (f : σ → σ) {ok : PUnit → σ → Prop} :
    Runs (modify f : ExceptT ε (StateM σ) PUnit) s ok bad ↔ ok ⟨⟩ (f s) := Iff.rfl

theorem tryCatch_apply (m : ExceptT ε (StateM σ) α) (h : ε → ExceptT ε (StateM σ) α) (s : σ) :
    (tryCatch m h) s =
      match m s with
      | (.ok a, s') => (.ok a, s')
      | (.error e, s') => h e s' := by
  show (match (m s).1 with
    | .ok a => (pure (Except.ok a) : StateM σ (Except ε α))
    | .error e => h e) (m s).2 = _
  rcases m s with ⟨_ | _, _⟩ <;> rfl

@[simp] theorem tryCatch_iff (m : ExceptT ε (StateM σ) α) (h : ε → ExceptT ε (StateM σ) α) :
    Runs (tryCatch m h) s ok bad ↔ Runs m s ok fun e s' => Runs (h e) s' ok bad := by
  simp only [Runs, tryCatch_apply]
  rcases m s with ⟨_ | _, _⟩ <;> rfl

theorem ite_iff (c : Prop) [Decidable c] (m n : ExceptT ε (StateM σ) α) :
    Runs (if c then m else n) s ok bad ↔
      if c then Runs m s ok bad else Runs n s ok bad := by
  split <;> rfl

end Runs

namespace Program

variable {α : Type} {p : Program} {ok : α → Program → Prop} {bad : Fault → Program → Prop}

@[simp] theorem runs_reject (cause : Rejection) :
    Runs (reject cause : Edit α) p ok bad ↔ bad (.rejected cause) p := Iff.rfl

theorem runs_ofResult (r : Except Fault α) :
    Runs (ofResult r) p ok bad ↔
      match r with
      | .ok a => ok a p
      | .error e => bad e p := by
  cases r <;> rfl

theorem runs_ofExcept (r : Except Rejection α) :
    Runs (ofExcept r) p ok bad ↔
      match r with
      | .ok a => ok a p
      | .error cause => bad (.rejected cause) p := by
  cases r <;> rfl

theorem runs_view (f : Program → Except Fault α) :
    Runs (view f) p ok bad ↔
      match f p with
      | .ok a => ok a p
      | .error e => bad e p := by
  simp only [view, Runs.bind_iff, Runs.get_iff, runs_ofResult]

end Program

namespace Import

variable {α : Type} {s : Session} {ok : α → Session → Prop} {bad : Fault → Session → Prop}

@[simp] theorem runs_edit (e : Edit α) :
    Runs (edit e) s ok bad ↔
      Runs e s.program (fun a p => ok a { s with program := p })
        fun f p => bad f { s with program := p } := by
  simp only [Runs, edit]
  rcases e s.program with ⟨_ | _, _⟩ <;> rfl

theorem runs_inside (calls : Nat) (m : ImportM α) :
    Runs (inside calls m) s ok bad ↔
      if s.room.allows calls then
        Runs m { s with room := s.room.inside calls } (fun a s' => ok a { s' with room := s.room })
          fun e s' => bad e { s' with room := s.room }
      else bad .tooDeep s := by
  by_cases h : s.room.allows calls = true
  · simp only [Runs, inside, h, if_true]
    rcases m { s with room := s.room.inside calls } with ⟨_ | _, _⟩ <;> rfl
  · simp only [Runs, inside, h]
    exact Iff.rfl

theorem runs_need (calls : Nat) {ok : Unit → Session → Prop} :
    Runs (need calls) s ok bad ↔
      if s.room.allows calls then ok () s else bad .tooDeep s := by
  simp only [need, runs_inside, Runs.pure_iff]

@[simp] theorem runs_onTypeFault (m : ImportM α) (handle : Fault → ImportM α) :
    Runs (onTypeFault m handle) s ok bad ↔
      Runs m s ok fun e s' =>
        if e.isTypeFault then Runs (handle e) s' ok bad else bad e s' := by
  simp only [onTypeFault, Runs.tryCatch_iff, Runs.ite_iff, Runs.throw_iff]

@[simp] theorem runs_onRejection (m : ImportM α) (handle : Fault → ImportM α) :
    Runs (onRejection m handle) s ok bad ↔
      Runs m s ok fun e s' =>
        if e.isRejection then Runs (handle e) s' ok bad else bad e s' := by
  simp only [onRejection, Runs.tryCatch_iff, Runs.ite_iff, Runs.throw_iff]

end Import

end StabsImport

import StabsImport.Proofs.Edits

/-!
# What a refused request leaves behind

What changes functions, labels or data looks first and writes last, so that a refusal leaves the
program as it was. Only a function is made before its name is looked at: where the name is refused,
the function stays, under its default name. Main statements: `Request.edit_refused` and, for such a
function, `Request.edit_refused_halfway`.
-/

namespace StabsImport

namespace Program

variable {α β : Type}

/-- A fault leaves the program as it was. -/
def IsAtomic (m : Edit α) : Prop := ∀ p, Runs m p (fun _ _ => True) fun _ q => q = p

/-- The program stays as it is, at either end. -/
def OnlyLooks (m : Edit α) : Prop := ∀ p, Runs m p (fun _ q => q = p) fun _ q => q = p

/-- The edit is made in any case. -/
def CannotFail (m : Edit α) : Prop := ∀ p, Runs m p (fun _ _ => True) fun _ _ => False

namespace OnlyLooks

theorem throw (e : Fault) : OnlyLooks (throw e : Edit α) := fun _ => rfl

theorem reject (cause : Rejection) : OnlyLooks (reject cause : Edit α) := throw _

theorem get : OnlyLooks get := fun _ => rfl

theorem ofResult (r : Except Fault α) : OnlyLooks (ofResult r) := by
  intro p
  cases r with
  | ok a => rfl
  | error e => rfl

theorem ofExcept (r : Except Rejection α) : OnlyLooks (ofExcept r) := by
  intro p
  cases r with
  | ok a => rfl
  | error cause => rfl

theorem view (f : Program → Except Fault α) : OnlyLooks (view f) := fun p => ofResult (f p) p

theorem isAtomic {m : Edit α} (h : OnlyLooks m) : IsAtomic m := fun p =>
  Runs.mono (h p) (fun _ _ _ => trivial) fun _ _ h => h

end OnlyLooks

namespace CannotFail

theorem pure (a : α) : CannotFail (pure a) := fun _ => trivial

theorem modify (f : Program → Program) : CannotFail (modify f) := fun _ => trivial

theorem bind {m : Edit α} {f : α → Edit β} (hm : CannotFail m) (hf : ∀ a, CannotFail (f a)) :
    CannotFail (m >>= f) := by
  intro p
  rw [Runs.bind_iff]
  exact Runs.mono (hm p) (fun a q _ => hf a q) fun _ _ h => h

theorem isAtomic {m : Edit α} (h : CannotFail m) : IsAtomic m := fun p =>
  Runs.mono (h p) (fun _ _ _ => trivial) fun _ _ h => h.elim

end CannotFail

/-- What is looked at first changes nothing. -/
theorem IsAtomic.bind {m : Edit α} {f : α → Edit β} (hm : OnlyLooks m)
    (hf : ∀ a, IsAtomic (f a)) : IsAtomic (m >>= f) := by
  intro p
  rw [Runs.bind_iff]
  refine Runs.mono (hm p) (fun a q hq => ?_) fun _ _ h => h
  rw [hq]
  exact hf a p

/-- Only the name of a function to be renamed is looked at. -/
theorem renameFunction_refused_leaves (entry : Int) (name : Json) (source : SourceKind)
    (p : Program) :
    Runs (renameFunction entry name source) p (fun _ _ => True) fun e q =>
      q = p ∧ checkName name = .error e := by
  rw [renameFunction, Runs.bind_iff, runs_ofResult]
  split
  · trivial
  · next e h => exact ⟨rfl, h⟩

theorem renameFunction_isAtomic (entry : Int) (name : Json) (source : SourceKind) :
    IsAtomic (renameFunction entry name source) := fun p =>
  Runs.mono (renameFunction_refused_leaves entry name source p) (fun _ _ h => h) fun _ _ h => h.1

theorem createLabel_isAtomic (address : Whole) (name : Json) (makePrimary : Bool) :
    IsAtomic (createLabel address name makePrimary) := by
  refine .bind (.ofResult _) fun name => .bind .get fun p => ?_
  dsimp only
  split
  · split
    · exact ((CannotFail.modify _).bind fun _ => .pure _).isAtomic
    · exact (CannotFail.pure _).isAtomic
  · exact ((CannotFail.modify _).bind fun _ => .pure _).isAtomic

theorem createData_isAtomic (address : Int) (type : TypeId) (length : Int) (clear : Bool) :
    IsAtomic (createData address type length clear) := by
  refine .bind .get fun p => ?_
  dsimp only
  split
  · exact .bind (.view _) fun _ => (OnlyLooks.reject _).isAtomic
  · split
    · exact (OnlyLooks.reject _).isAtomic
    · split
      · exact (OnlyLooks.reject _).isAtomic
      · split
        · exact (OnlyLooks.reject _).isAtomic
        · exact CannotFail.isAtomic fun _ => trivial

theorem setReturnType_isAtomic (entry : Int) (type : Option TypeId) :
    IsAtomic (setReturnType entry type) := by
  cases type with
  | none => exact .bind .get fun _ => (OnlyLooks.reject _).isAtomic
  | some type => exact (CannotFail.modify _).isAtomic

theorem replaceParameters_isAtomic (entry : Int) (parameters : List (Json × TypeId)) :
    IsAtomic (replaceParameters entry parameters) := by
  refine .bind .get fun p => .bind (.ofResult _) fun named => ?_
  exact .bind (.view _) fun storage => (CannotFail.modify _).isAtomic

theorem addLocal_isAtomic (entry : Int) (name : Json) (type : TypeId) (stackOffset : Int) :
    IsAtomic (addLocal entry name type stackOffset) := by
  refine .bind .get fun p => ?_
  split
  · exact (CannotFail.pure _).isAtomic
  · refine .bind (.ofResult _) fun name => .bind (.ofExcept _) fun _ => ?_
    exact (CannotFail.modify _).isAtomic

/-- A function that is refused is not made, unless it is its name that is refused: then it is made
as it would be without a name. -/
theorem createFunction_refused_leaves (name : Json) (entry : Whole)
    (body : Option (Whole × Bound)) (source : SourceKind) (p : Program) :
    Runs (createFunction name entry body source) p (fun _ _ => True) fun e q =>
      q = p ∨ name.holds = true ∧ checkName name = .error e ∧
        Runs (createFunction .null entry body source) p (fun _ r => r = q) fun _ _ => False := by
  unfold createFunction
  rcases body.getD (entry, .whole entry) with ⟨low, high⟩
  dsimp only
  split
  · exact .inl rfl
  simp only [Runs.bind_iff, Runs.get_iff]
  split
  · exact .inl rfl
  simp only [Runs.bind_iff, Runs.get_iff]
  split
  · exact .inl rfl
  simp only [Runs.bind_iff, setFunction, addSymbol, Runs.modify_iff]
  -- All that can still be refused is the name.
  split
  · next hname =>
      refine Runs.mono (renameFunction_refused_leaves entry.value name source _) (fun _ _ h => h) ?_
      rintro e q ⟨rfl, hcheck⟩
      exact .inr ⟨hname, hcheck, rfl⟩
  · trivial

end Program

/-- What a program may be asked for, and refuse. -/
inductive Request where
  | createFunction (name : Json) (entry : Whole) (body : Option (Whole × Bound))
      (source : SourceKind)
  | renameFunction (entry : Int) (name : Json) (source : SourceKind)
  | createLabel (address : Whole) (name : Json) (makePrimary : Bool)
  | createData (address : Int) (type : TypeId) (length : Int) (clear : Bool)
  | setReturnType (entry : Int) (type : Option TypeId)
  | replaceParameters (entry : Int) (parameters : List (Json × TypeId))
  | addLocal (entry : Int) (name : Json) (type : TypeId) (stackOffset : Int)

namespace Request

variable {p q : Program} {r : Request} {e : Fault}

def edit : Request → Edit Unit
  | createFunction name entry body source => Program.createFunction name entry body source
  | renameFunction entry name source => Program.renameFunction entry name source
  | createLabel address name makePrimary => do
      let _ ← Program.createLabel address name makePrimary
  | createData address type length clear => Program.createData address type length clear
  | setReturnType entry type => Program.setReturnType entry type
  | replaceParameters entry parameters => Program.replaceParameters entry parameters
  | addLocal entry name type stackOffset => Program.addLocal entry name type stackOffset

/-- The name of a function to be made, if one is given, is one that a symbol may have. -/
def NamesWell : Request → Prop
  | createFunction name .. => name.holds = true → ∃ text, Program.checkName name = .ok text
  | _ => True

/-- The function is made as it would be without a name, and then the name is refused. -/
def IsHalfMade (p : Program) (r : Request) (e : Fault) (q : Program) : Prop :=
  ∃ name entry body source, r = createFunction name entry body source ∧ name.holds = true ∧
    Program.checkName name = .error e ∧
      (createFunction .null entry body source).edit p = (.ok (), q)

theorem IsHalfMade.not_namesWell (h : IsHalfMade p r e q) : ¬ r.NamesWell := by
  obtain ⟨name, entry, body, source, rfl, hname, hcheck, -⟩ := h
  intro well
  obtain ⟨text, htext⟩ := well hname
  rw [hcheck] at htext
  cases htext

theorem runs_edit (r : Request) (p : Program) :
    Runs r.edit p (fun _ _ => True) fun e q => q = p ∨ IsHalfMade p r e q := by
  have atomic {m : Edit Unit} (h : Program.IsAtomic m) :
      Runs m p (fun _ _ => True) fun e q => q = p ∨ IsHalfMade p r e q :=
    Runs.mono (h p) (fun _ _ h => h) fun _ _ => .inl
  cases r with
  | createFunction name entry body source =>
      refine Runs.mono (Program.createFunction_refused_leaves name entry body source p)
        (fun _ _ h => h) fun e q h => h.imp_right fun h => ?_
      obtain ⟨hname, hcheck, hmade⟩ := h
      refine ⟨name, entry, body, source, rfl, hname, hcheck, Runs.eq_ok ?_⟩
      exact Runs.mono hmade (fun _ _ h => ⟨rfl, h⟩) fun _ _ h => h
  | renameFunction entry name source =>
      exact atomic (Program.renameFunction_isAtomic entry name source)
  | createLabel address name makePrimary =>
      refine atomic fun p => ?_
      rw [edit, Runs.bind_iff]
      exact Program.createLabel_isAtomic address name makePrimary p
  | createData address type length clear =>
      exact atomic (Program.createData_isAtomic address type length clear)
  | setReturnType entry type => exact atomic (Program.setReturnType_isAtomic entry type)
  | replaceParameters entry parameters =>
      exact atomic (Program.replaceParameters_isAtomic entry parameters)
  | addLocal entry name type stackOffset =>
      exact atomic (Program.addLocal_isAtomic entry name type stackOffset)

/-- A request that is refused leaves the program as it was, but for a function that is made before
its name is refused. -/
theorem edit_refused (h : r.edit p = (.error e, q)) : q = p ∨ IsHalfMade p r e q := by
  have hrun := r.runs_edit p
  rw [Runs, h] at hrun
  exact hrun

/-- A function whose name has a space in it. -/
def spacedFunction : Request := createFunction (.text "two words") ⟨256, false⟩ none .analysis

theorem edit_refused_spaced :
    (spacedFunction.edit {}).1 = .error (.rejected (.blankInName "two words")) ∧
      ((spacedFunction.edit {}).2 = {} ∨ IsHalfMade {} spacedFunction
        (.rejected (.blankInName "two words")) (spacedFunction.edit {}).2) := by
  have refused : (spacedFunction.edit {}).1 = .error (.rejected (.blankInName "two words")) := by
    rfl
  exact ⟨refused, edit_refused (Prod.ext refused rfl)⟩

/-- A request can be refused and leave a function. -/
theorem edit_refused_halfway :
    (spacedFunction.edit {}).1 = .error (.rejected (.blankInName "two words")) ∧
      (spacedFunction.edit {}).2 ≠ {} := by
  refine ⟨by rfl, fun h => ?_⟩
  have made : (spacedFunction.edit {}).2.functions.contains 256 = true := by decide +kernel
  rw [h] at made
  cases made

/-! ## One request after another -/

/-- The program a request leaves behind, granted or refused. -/
def carryOut (p : Program) (r : Request) : Program := (r.edit p).2

def carryOutAll (p : Program) (requests : List Request) : Program := requests.foldl carryOut p

/-- The requests that are granted in their turn. -/
def granted : Program → List Request → List Request
  | _, [] => []
  | p, r :: rest =>
      match r.edit p with
      | (.ok _, q) => r :: granted q rest
      | (.error _, q) => granted q rest

/-- What is refused might as well not have been asked for. -/
theorem carryOutAll_granted {requests : List Request} (well : ∀ r ∈ requests, r.NamesWell) :
    carryOutAll p (granted p requests) = carryOutAll p requests := by
  induction requests generalizing p with
  | nil => rfl
  | cons r rest ih =>
      have hrest (q : Program) : carryOutAll q (granted q rest) = carryOutAll q rest :=
        ih fun r hr => well r (List.mem_cons_of_mem _ hr)
      have hrun := r.runs_edit p
      rw [Runs] at hrun
      rcases hedit : r.edit p with ⟨e | _, q⟩
      · rw [hedit] at hrun
        have hq : q = p := Or.resolve_right hrun fun h =>
          h.not_namesWell (well r List.mem_cons_self)
        simp only [granted, carryOutAll, List.foldl_cons, carryOut, hedit, hq]
        exact hrest p
      · simp only [granted, carryOutAll, List.foldl_cons, carryOut, hedit]
        exact hrest q

end Request

end StabsImport

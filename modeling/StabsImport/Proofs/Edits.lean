import StabsImport.Program.Data
import StabsImport.Program.Functions
import StabsImport.Proofs.Nodes
import StabsImport.Proofs.Registry

/-!
# Edits of functions, symbols, comments and data

Such an edit leaves the types of a program alone. Where names are texts or missing and bodies end at
whole numbers it is made or refused, and no other fault comes of it, unless the slots of the stack
have no size.
-/

namespace StabsImport

/-- The programs have the same types and the same memory, and hand over arguments the same way. -/
structure SameTypes (p q : Program) : Prop where
  arena : q.arena = p.arena
  registry : q.registry = p.registry
  pointerSize : q.pointerSize = p.pointerSize
  convention : q.convention = p.convention
  memory : q.memory = p.memory

namespace SameTypes

variable {p q r : Program}

theorem refl (p : Program) : SameTypes p p := ⟨rfl, rfl, rfl, rfl, rfl⟩

theorem trans (h : SameTypes p q) (h' : SameTypes q r) : SameTypes p r :=
  ⟨h'.arena.trans h.arena, h'.registry.trans h.registry, h'.pointerSize.trans h.pointerSize,
    h'.convention.trans h.convention, h'.memory.trans h.memory⟩

theorem sound (h : SameTypes p q) (hp : p.Sound) : q.Sound := by
  obtain ⟨ha, hr, -, -, -⟩ := h
  constructor
  · rw [ha]
    exact hp.arena
  · rw [ha, hr]
    exact hp.lt_size
  · rw [hr]
    exact hp.text
  · rw [ha, hr]
    exact hp.own

end SameTypes

/-- The edit leaves the types of a program alone. -/
def KeepsTypes {α : Type} (e : Edit α) : Prop :=
  ∀ p, Runs e p (fun _ q => SameTypes p q) fun _ q => SameTypes p q

namespace KeepsTypes

variable {α β : Type}

theorem pure (a : α) : KeepsTypes (pure a) := SameTypes.refl

theorem throw (e : Fault) : KeepsTypes (throw e : Edit α) := SameTypes.refl

theorem bind {e : Edit α} {f : α → Edit β} (he : KeepsTypes e) (hf : ∀ a, KeepsTypes (f a)) :
    KeepsTypes (e >>= f) := by
  intro p
  rw [Runs.bind_iff]
  refine Runs.mono (he p) (fun a q hq => ?_) fun _ _ h => h
  exact Runs.mono (hf a q) (fun _ _ h => hq.trans h) fun _ _ h => hq.trans h

theorem get : KeepsTypes get := SameTypes.refl

theorem modify {f : Program → Program} (h : ∀ p, SameTypes p (f p)) : KeepsTypes (modify f) := h

theorem ofResult (r : Except Fault α) : KeepsTypes (Program.ofResult r) := by
  cases r with
  | ok a => exact pure a
  | error e => exact throw e

theorem ofExcept (r : Except Rejection α) : KeepsTypes (Program.ofExcept r) := by
  cases r with
  | ok a => exact pure a
  | error e => exact throw _

theorem reject (cause : Rejection) : KeepsTypes (Program.reject cause : Edit α) := throw _

theorem view (f : Program → Except Fault α) : KeepsTypes (Program.view f) :=
  get.bind fun _ => ofResult _

theorem ite {c : Prop} [Decidable c] {e f : Edit α} (he : KeepsTypes e) (hf : KeepsTypes f) :
    KeepsTypes (if c then e else f) := by
  split
  · exact he
  · exact hf

end KeepsTypes

namespace Program

open KeepsTypes

theorem sameTypes_setSymbols (p : Program) (address : Whole) (symbols : List Symbol) :
    SameTypes p (p.setSymbols address symbols) := ⟨rfl, rfl, rfl, rfl, rfl⟩

theorem keepsTypes_setFunction (f : Function) : KeepsTypes (setFunction f) :=
  .modify fun _ => ⟨rfl, rfl, rfl, rfl, rfl⟩

theorem keepsTypes_editFunction (entry : Int) (f : Function → Function) :
    KeepsTypes (editFunction entry f) :=
  .modify fun _ => ⟨rfl, rfl, rfl, rfl, rfl⟩

theorem keepsTypes_addSymbol (s : Symbol) : KeepsTypes (addSymbol s) :=
  .modify fun p => sameTypes_setSymbols p _ _

theorem keepsTypes_renameFunction (entry : Int) (name : Json) (source : SourceKind) :
    KeepsTypes (renameFunction entry name source) := by
  refine (KeepsTypes.ofResult _).bind fun name => KeepsTypes.get.bind fun p => ?_
  exact (KeepsTypes.modify fun p => sameTypes_setSymbols p _ _).bind fun _ =>
    keepsTypes_editFunction entry _

theorem keepsTypes_createFunction (name : Json) (entry : Whole) (body : Option (Whole × Bound))
    (source : SourceKind) : KeepsTypes (createFunction name entry body source) := by
  unfold createFunction
  split
  dsimp only
  refine .ite (.throw _) (KeepsTypes.get.bind fun p => .ite (.reject _) ?_)
  refine KeepsTypes.get.bind fun p => ?_
  split
  · exact .reject _
  · refine (keepsTypes_setFunction _).bind fun _ => (keepsTypes_addSymbol _).bind fun _ => ?_
    exact .ite (keepsTypes_renameFunction _ _ _) (.pure _)

theorem keepsTypes_setReturnType (entry : Int) (type : Option TypeId) :
    KeepsTypes (setReturnType entry type) := by
  cases type with
  | none => exact KeepsTypes.get.bind fun _ => .reject _
  | some type => exact keepsTypes_editFunction entry _

theorem keepsTypes_replaceParameters (entry : Int) (parameters : List (Json × TypeId)) :
    KeepsTypes (replaceParameters entry parameters) := by
  refine KeepsTypes.get.bind fun p => (KeepsTypes.ofResult _).bind fun named => ?_
  exact (KeepsTypes.view _).bind fun storage => keepsTypes_editFunction entry _

theorem keepsTypes_addLocal (entry : Int) (name : Json) (type : TypeId) (stackOffset : Int) :
    KeepsTypes (addLocal entry name type stackOffset) := by
  refine KeepsTypes.get.bind fun p => ?_
  split
  · exact .pure _
  · refine (KeepsTypes.ofResult _).bind fun name => (KeepsTypes.ofExcept _).bind fun _ => ?_
    exact keepsTypes_setFunction _

theorem keepsTypes_removeSymbolAt (address : Int) (index : Nat) :
    KeepsTypes (removeSymbolAt address index) := by
  refine .modify fun p => ?_
  dsimp only
  split
  · exact .refl p
  · split
    · exact sameTypes_setSymbols p _ _
    · exact ⟨rfl, rfl, rfl, rfl, rfl⟩

theorem keepsTypes_createLabel (address : Whole) (name : Json) (makePrimary : Bool) :
    KeepsTypes (createLabel address name makePrimary) := by
  refine (KeepsTypes.ofResult _).bind fun name => KeepsTypes.get.bind fun p => ?_
  dsimp only
  split
  · split
    · exact (KeepsTypes.modify fun p => sameTypes_setSymbols p _ _).bind fun _ => .pure _
    · exact .pure _
  · exact (keepsTypes_addSymbol _).bind fun _ => .pure _

theorem keepsTypes_setComment (address : Int) (kind : CommentKind) (text : Option String) :
    KeepsTypes (setComment address kind text) :=
  .modify fun _ => ⟨rfl, rfl, rfl, rfl, rfl⟩

theorem keepsTypes_typeLength (id : TypeId) : KeepsTypes (typeLength id) :=
  KeepsTypes.get.bind fun _ => .pure _

theorem keepsTypes_createData (address : Int) (type : TypeId) (length : Int) (clear : Bool) :
    KeepsTypes (createData address type length clear) := by
  intro p
  rw [createData, Runs.bind_iff, Runs.get_iff]
  dsimp only
  split
  · exact ((KeepsTypes.view _).bind fun _ => .reject _) p
  · split
    · exact KeepsTypes.reject _ p
    · split
      · exact KeepsTypes.reject _ p
      · split
        · exact KeepsTypes.reject _ p
        · exact ⟨rfl, rfl, rfl, rfl, rfl⟩

end Program

/-! ## Refusals -/

/-- What the program refuses. -/
def Refused : Fault → Prop := fun e => e.isRejection = true

namespace Program

variable {α β : Type} {p : Program} {bad : Fault → Prop}

/-- The edit is made, or a fault of this kind comes of it. -/
def IsMadeOr (bad : Fault → Prop) (e : Edit α) (p : Program) : Prop :=
  Runs e p (fun _ _ => True) fun f _ => bad f

namespace IsMadeOr

theorem pure (a : α) : IsMadeOr bad (pure a) p := trivial

theorem reject (cause : Rejection) : IsMadeOr Refused (reject cause : Edit α) p := rfl

theorem bind {e : Edit α} {f : α → Edit β} (he : IsMadeOr bad e p)
    (hf : ∀ a q, IsMadeOr bad (f a) q) : IsMadeOr bad (e >>= f) p := by
  rw [IsMadeOr, Runs.bind_iff]
  exact Runs.mono he (fun a q _ => hf a q) fun _ _ h => h

theorem get {f : Program → Edit α} (h : IsMadeOr bad (f p) p) : IsMadeOr bad (get >>= f) p := h

theorem modify (f : Program → Program) : IsMadeOr bad (modify f) p := trivial

theorem ofResult {r : Except Fault α} (h : ∀ e, r = .error e → bad e) :
    IsMadeOr bad (ofResult r) p := by
  cases r with
  | ok a => trivial
  | error e => exact h e rfl

theorem ofExcept (r : Except Rejection α) : IsMadeOr Refused (ofExcept r) p := by
  cases r with
  | ok a => trivial
  | error cause => rfl

theorem forM {f : α → Edit PUnit} (hf : ∀ a q, IsMadeOr bad (f a) q) (l : List α) :
    IsMadeOr bad (l.forM f) p := by
  induction l generalizing p with
  | nil => exact .pure _
  | cons a rest ih => exact (hf a p).bind fun _ _ => ih

end IsMadeOr

/-! ## Names -/

theorem text_of_checkName {name : Json} {given : String} (h : checkName name = .ok given) :
    name = .text given := by
  cases name with
  | text name =>
      simp only [checkName] at h
      split at h
      · cases h
      · split at h
        · cases h
        · cases h
          rfl
  | _ => cases h

theorem refused_of_checkName {name : Json} (hn : name.IsName) {e : Fault}
    (h : checkName name = .error e) : Refused e := by
  rcases hn with rfl | ⟨text, rfl⟩
  · cases h
    rfl
  · simp only [checkName] at h
    split at h
    · cases h
      rfl
    · split at h
      · cases h
        rfl
      · cases h

theorem refused_of_inkedName {unnamed : Rejection} {name : Json} (hn : name.IsName) {e : Fault}
    (h : inkedName unnamed name = .error e) : Refused e := by
  rcases hn with rfl | ⟨text, rfl⟩
  · cases h
    rfl
  · simp only [inkedName] at h
    split at h
    · cases h
      rfl
    · cases h

theorem refused_of_namedParameters {function : String} {parameters : List (Json × TypeId)}
    (hn : ∀ q ∈ parameters, q.1.IsName) {seen : List String} {e : Fault}
    (h : namedParameters function seen parameters = .error e) : Refused e := by
  induction parameters generalizing seen with
  | nil => cases h
  | cons q rest ih =>
      obtain ⟨name, type⟩ := q
      have hname : name.IsName := hn _ List.mem_cons_self
      have hrest := fun r hr => hn r (List.mem_cons_of_mem _ hr)
      simp only [namedParameters, bind, Except.bind] at h
      cases hi : inkedName (.unnamedParameter function) name with
      | error f =>
          simp only [hi] at h
          cases h
          exact refused_of_inkedName hname hi
      | ok text =>
          simp only [hi] at h
          split at h
          · cases h
            rfl
          · cases hr : namedParameters function (text :: seen) rest with
            | error f =>
                simp only [hr] at h
                cases h
                exact ih hrest hr
            | ok named => simp [hr, pure, Except.pure] at h

/-! ## Storage -/

/-- Every argument has its place, unless the slots of the stack have no size. -/
theorem assignFrom_error {alignment : Int} {lengths : List Int} {registers : List String}
    {offset : Int} {e : Fault}
    (h : CallingConvention.assignFrom alignment registers offset lengths = .error e) :
    e = .zeroAlignment ∧ alignment = 0 := by
  have map {r : Except Fault (List String)} {slot : String} (hr : r.map (slot :: ·) = .error e) :
      r = .error e := by
    cases r with
    | ok storage => cases hr
    | error f => exact hr
  induction lengths generalizing registers offset with
  | nil => simp [CallingConvention.assignFrom] at h
  | cons length rest ih =>
      cases registers with
      | nil =>
          simp only [CallingConvention.assignFrom] at h
          split at h
          · next h0 =>
              cases h
              exact ⟨rfl, h0⟩
          · exact ih (map h)
      | cons register registers =>
          simp only [CallingConvention.assignFrom] at h
          split at h
          · exact ih (map h)
          · split at h
            · next h0 =>
                cases h
                exact ⟨rfl, h0⟩
            · exact ih (map h)

/-! ## Edits -/

theorem renameFunction_refused (entry : Int) {name : Json} (hn : name.IsName)
    (source : SourceKind) : IsMadeOr Refused (renameFunction entry name source) p :=
  .bind (.ofResult fun _ => refused_of_checkName hn) fun _ _ =>
    .get (.bind (.modify _) fun _ _ => .modify _)

theorem createFunction_refused {name : Json} (hn : name.IsName) (entry : Whole)
    (body : Option (Whole × Whole)) (source : SourceKind) :
    IsMadeOr Refused (createFunction name entry (body.map fun b => (b.1, .whole b.2)) source) p := by
  have create (low high : Whole) :
      IsMadeOr Refused (createFunction name entry (some (low, .whole high)) source) p := by
    unfold createFunction
    dsimp only [Option.getD_some]
    split
    · exact IsMadeOr.reject (.badBody low.value high.value entry.value)
    · refine .get ?_
      split
      · exact .reject _
      · refine .get ?_
        split
        · exact .reject _
        · refine .bind (.modify _) fun _ q => .bind (.modify _) fun _ q => ?_
          split
          · exact renameFunction_refused _ hn source
          · exact .pure _
  cases body with
  | some b => exact create b.1 b.2
  | none => exact create entry entry

/-- The parameters of a function are replaced or refused, unless the slots of the stack have no
size. -/
theorem replaceParameters_refused (entry : Int) {parameters : List (Json × TypeId)}
    (hn : ∀ q ∈ parameters, q.1.IsName) :
    IsMadeOr (fun e => Refused e ∨ e = .zeroAlignment ∧ p.convention.alignment = 0)
      (replaceParameters entry parameters) p := by
  refine .get ?_
  rw [IsMadeOr, Runs.bind_iff, runs_ofResult]
  cases hp : namedParameters ((p.function? entry).elim "" (·.name)) [] parameters with
  | error e => exact .inl (refused_of_namedParameters hn hp)
  | ok named =>
      dsimp only
      rw [Runs.bind_iff, runs_view]
      cases hs : p.convention.assignStorage (named.map fun q => p.arena.length q.type) with
      | ok storage => trivial
      | error e => exact .inr (assignFrom_error hs)

theorem addLocal_refused (entry : Int) {name : Json} (hn : name.IsName) (type : TypeId)
    (stackOffset : Int) : IsMadeOr Refused (addLocal entry name type stackOffset) p := by
  refine .get ?_
  split
  · exact .pure _
  · refine .bind (.ofResult fun _ => refused_of_inkedName hn) fun _ _ => ?_
    exact .bind (.ofExcept _) fun _ _ => .modify _

theorem createLabel_refused (address : Whole) {name : Json} (hn : name.IsName)
    (makePrimary : Bool) : IsMadeOr Refused (createLabel address name makePrimary) p := by
  refine .bind (.ofResult fun _ => refused_of_checkName hn) fun _ q => .get ?_
  dsimp only
  split
  · split
    · exact .bind (.modify _) fun _ _ => .pure _
    · exact .pure _
  · exact .bind (.modify _) fun _ _ => .pure _

theorem createData_refused (hp : p.Sound) (room : p.arena.room = none) (address : Int)
    (type : TypeId) (length : Int) (clear : Bool) :
    IsMadeOr Refused (createData address type length clear) p := by
  refine .get ?_
  dsimp only
  split
  · obtain ⟨text, ht⟩ := hp.arena.plainName_ok room type
    rw [IsMadeOr, Runs.bind_iff, typeName, runs_view, ht]
    exact IsMadeOr.reject _
  · split
    · exact .reject _
    · split
      · exact .reject _
      · split
        · exact .reject _
        · trivial

end Program

end StabsImport

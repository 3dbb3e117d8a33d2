import StabsImport.Proofs.Stagewise

/-!
# Edits that overlook comments

All edits but those of comments neither look at the comments of a program nor change any.
-/

namespace StabsImport

/-- The edit neither looks at comments nor changes any. -/
def Program.Overlooks {α : Type} (e : Edit α) : Prop :=
  ∀ p comments, e { p with comments } = ((e p).1, { (e p).2 with comments })

namespace Program.Overlooks

variable {α β : Type}

theorem pure (a : α) : Overlooks (pure a) := fun _ _ => rfl

theorem throw (e : Fault) : Overlooks (throw e : Edit α) := fun _ _ => rfl

theorem reject (cause : Rejection) : Overlooks (reject cause : Edit α) := throw _

theorem bind {m : Edit α} {f : α → Edit β} (hm : Overlooks m) (hf : ∀ a, Overlooks (f a)) :
    Overlooks (m >>= f) := by
  intro p comments
  rw [Runs.bind_apply, Runs.bind_apply, hm p comments]
  rcases m p with ⟨e | a, q⟩
  · rfl
  · exact hf a q comments

theorem get {f : Program → Edit α} (same : ∀ p comments, f { p with comments } = f p)
    (hf : ∀ p, Overlooks (f p)) : Overlooks (get >>= f) := fun p comments => by
  show f { p with comments } { p with comments } = _
  rw [same]
  exact hf p p comments

theorem modify {f : Program → Program}
    (hf : ∀ p comments, f { p with comments } = { f p with comments }) :
    Overlooks (modify f : Edit PUnit) := fun p comments =>
  congrArg (Prod.mk (Except.ok PUnit.unit)) (hf p comments)

theorem ofResult (r : Except Fault α) : Overlooks (ofResult r) := by
  cases r with
  | ok a => exact pure a
  | error e => exact throw e

theorem ofExcept (r : Except Rejection α) : Overlooks (ofExcept r) := by
  cases r with
  | ok a => exact pure a
  | error cause => exact throw _

theorem view {f : Program → Except Fault α} (same : ∀ p comments, f { p with comments } = f p) :
    Overlooks (view f) :=
  get (fun p comments => by rw [same]) fun p => ofResult (f p)

theorem ite {c : Prop} [Decidable c] {m n : Edit α} (hm : Overlooks m) (hn : Overlooks n) :
    Overlooks (if c then m else n) := by
  split
  · exact hm
  · exact hn

/-- Such an edit leaves the comments as they were. -/
theorem comments {e : Edit α} (h : Overlooks e) (p : Program) :
    (e p).2.comments = p.comments := by
  have same := h p p.comments
  exact congrArg (·.2.comments) same

end Program.Overlooks

namespace Program

/-! ## Edits of types -/

theorem overlooks_newType (t : TypeObject) : Overlooks (newType t) := fun _ _ => rfl

theorem overlooks_setType (id : TypeId) (t : TypeObject) : Overlooks (setType id t) :=
  .modify fun _ _ => rfl

theorem overlooks_typeName (id : TypeId) : Overlooks (typeName id) := .view fun _ _ => rfl

theorem overlooks_typeLength (id : TypeId) : Overlooks (typeLength id) := fun _ _ => rfl

theorem overlooks_newUndefined (size : Int) : Overlooks (newUndefined size) :=
  .ite (.reject _) (overlooks_newType _)

theorem overlooks_newArray (element : TypeId) (count : Int) : Overlooks (newArray element count) :=
  (overlooks_typeLength element).bind fun _ =>
    .ite ((overlooks_typeName element).bind fun _ => .reject _)
      (.ite (.reject _) (overlooks_newType _))

theorem overlooks_newComposite (kind : CompositeKind) (name : Json) (size : Int) :
    Overlooks (newComposite kind name size) :=
  overlooks_newType _

theorem overlooks_sizedType (id : Option TypeId) : Overlooks (sizedType id) := by
  cases id with
  | none => exact overlooks_newUndefined 1
  | some id =>
      exact (overlooks_typeLength id).bind fun _ => .ite (overlooks_newUndefined 1) (.pure id)

theorem overlooks_editComposite (kind : CompositeKind) (id : TypeId)
    (f : Composite → Except Rejection Composite) : Overlooks (editComposite kind id f) := by
  refine .get (fun _ _ => rfl) fun p => ?_
  split
  · split
    · exact (Overlooks.throw _).bind fun _ =>
        (Overlooks.ofExcept _).bind fun _ => overlooks_setType _ _
    · exact (Overlooks.ofExcept _).bind fun _ => overlooks_setType _ _
  · exact .throw _

theorem overlooks_kindOf (id : TypeId) : Overlooks ( kindOf? id) := fun _ _ => rfl

theorem place_uncommented (p : Program) (comments : Ledger (Int × CommentKind) String)
    (fresh : TypeId) (name : Json) :
    ({ p with comments } : Program).place fresh name = p.place fresh name := by
  have among (name : String) (fuel n : Nat) :
      ({ p with comments } : Program).conflictPlace fresh name fuel n =
        p.conflictPlace fresh name fuel n := by
    induction fuel generalizing n with
    | zero => rfl
    | succ fuel ih => simp only [conflictPlace, ih]
  simp only [place, placeAmongConflicts, among]

theorem overlooks_rename (id : TypeId) (name : Json) : Overlooks (rename id name) := by
  refine .get (fun _ _ => rfl) fun p => ?_
  split
  · exact overlooks_setType _ _
  · exact .throw _

theorem overlooks_addType (id : TypeId) : Overlooks (addType id) := by
  refine (Overlooks.view fun _ _ => rfl).bind fun name =>
    (Overlooks.view fun p comments => place_uncommented p comments id name).bind fun place => ?_
  cases place with
  | taken other => exact .pure other
  | free free =>
      have register : Overlooks (do
          MonadStateOf.modifyGet fun p : Program =>
            (PUnit.unit, { p with registry := p.registry.put free id })
          return id) := (Overlooks.modify fun _ _ => rfl).bind fun _ => .pure id
      dsimp only
      split
      · exact (overlooks_rename id free).bind fun _ => register
      · exact register

/-! ## Edits of functions, symbols and data -/

theorem overlooks_setFunction (f : Function) : Overlooks (setFunction f) := .modify fun _ _ => rfl

theorem overlooks_editFunction (entry : Int) (f : Function → Function) :
    Overlooks (editFunction entry f) := .modify fun _ _ => rfl

theorem overlooks_addSymbol (s : Symbol) : Overlooks (addSymbol s) := .modify fun _ _ => rfl

theorem overlooks_renameFunction (entry : Int) (name : Json) (source : SourceKind) :
    Overlooks (renameFunction entry name source) := by
  refine (Overlooks.ofResult _).bind fun name => .get (fun _ _ => rfl) fun p => ?_
  exact (Overlooks.modify fun _ _ => rfl).bind fun _ => overlooks_editFunction _ _

theorem overlooks_createFunction (name : Json) (entry : Whole) (body : Option (Whole × Bound))
    (source : SourceKind) : Overlooks (createFunction name entry body source) := by
  unfold createFunction
  rcases body.getD (entry, .whole entry) with ⟨low, high⟩
  dsimp only
  refine .ite (.throw _) (.get (fun _ _ => rfl) fun p => .ite (.reject _) ?_)
  refine .get (fun _ _ => rfl) fun q => ?_
  split
  · exact .reject _
  · refine (overlooks_setFunction _).bind fun _ => (overlooks_addSymbol _).bind fun _ => ?_
    exact .ite (overlooks_renameFunction _ _ _) (.pure _)

theorem overlooks_removeSymbolAt (address : Int) (index : Nat) :
    Overlooks (removeSymbolAt address index) := by
  refine .modify fun p comments => ?_
  have same : ({ p with comments } : Program).symbolsAt address = p.symbolsAt address := rfl
  dsimp only
  rw [same]
  cases (p.symbolsAt address)[index]? with
  | none => rfl
  | some s =>
      dsimp only
      cases s.kind with
      | label => rfl
      | function => rfl

theorem overlooks_dropStale (entry : Int) (name : Json) (symbols : List Symbol) :
    Overlooks (Import.dropStale entry name symbols) := by
  have drop (s : Symbol) : Overlooks (Import.dropSymbol entry s) := by
    refine .get (fun _ _ => rfl) fun p => ?_
    split
    · exact overlooks_removeSymbolAt _ _
    · exact .pure _
  induction symbols with
  | nil => exact .pure _
  | cons s rest ih =>
      rw [Import.dropStale]
      split
      · exact (drop s).bind fun _ => ih
      · exact ih

theorem overlooks_setFunctionComment (entry : Int) (comment : Json) :
    Overlooks (setFunctionComment entry comment) := overlooks_editFunction _ _

theorem overlooks_setReturnType (entry : Int) (type : Option TypeId) :
    Overlooks (setReturnType entry type) := by
  cases type with
  | none => exact .get (fun _ _ => rfl) fun _ => .reject _
  | some type => exact overlooks_editFunction _ _

theorem overlooks_replaceParameters (entry : Int) (parameters : List (Json × TypeId)) :
    Overlooks (replaceParameters entry parameters) := by
  refine .get (fun _ _ => rfl) fun p => (Overlooks.ofResult _).bind fun named => ?_
  exact (Overlooks.view fun _ _ => rfl).bind fun storage => overlooks_editFunction _ _

theorem overlooks_addLocal (entry : Int) (name : Json) (type : TypeId) (stackOffset : Int) :
    Overlooks (addLocal entry name type stackOffset) := by
  refine .get (fun _ _ => rfl) fun p => ?_
  split
  · exact .pure _
  · exact (Overlooks.ofResult _).bind fun _ => (Overlooks.ofExcept _).bind fun _ => overlooks_setFunction _

theorem overlooks_createData (address : Int) (type : TypeId) (length : Int) (clear : Bool) :
    Overlooks (createData address type length clear) := by
  intro p comments
  let stop := address + length
  show (if length ≤ 0 then _ else if !p.isMapped address (stop - 1) then _ else _ : Edit Unit)
      { p with comments } =
    (((if length ≤ 0 then _ else if !p.isMapped address (stop - 1) then _ else _ : Edit Unit) p).1,
      { ((if length ≤ 0 then _ else if !p.isMapped address (stop - 1) then _ else _ :
        Edit Unit) p).2 with comments })
  split
  · exact ((overlooks_typeName type).bind fun _ => .reject _) p comments
  · split
    · rfl
    · cases p.functions.values.find? (bodyMeets address stop) with
      | some f => rfl
      | none =>
          cases p.data.entries.find? (dataMeets address stop) with
          | none => rfl
          | some e => cases clear <;> rfl

theorem overlooks_createLabel (address : Whole) (name : Json) (makePrimary : Bool) :
    Overlooks (createLabel address name makePrimary) := by
  refine (Overlooks.ofResult _).bind fun name => .get (fun _ _ => rfl) fun p => ?_
  dsimp only
  split
  · split
    · exact (Overlooks.modify fun _ _ => rfl).bind fun _ => .pure _
    · exact .pure _
  · exact (overlooks_addSymbol _).bind fun _ => .pure _

end Program

end StabsImport

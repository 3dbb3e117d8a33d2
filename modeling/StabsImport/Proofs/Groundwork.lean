import StabsImport.Proofs.Grounding
import StabsImport.Proofs.SizedPositions

/-!
# Whole imports of well-typed documents

The stages of functions and of globals ask for types and edit what is not a type. So a whole import
of a well-typed document, into whatever grounded program and wherever it ends, leaves a session from
which types can be made as before.
-/

namespace StabsImport

theorem Program.Grounded.withSame {p q : Program} (hp : p.Grounded) (same : SameTypes p q) :
    p.Builds q := by
  refine ⟨⟨?_, ?_⟩, ?_⟩
  · rw [same.arena]
    exact hp.arena
  · rw [same.arena, same.registry]
    exact hp.registered
  · rw [same.arena]

namespace Import

open Document (FunctionDefinition SourceFile Variable Node)

variable {s : Session} {d : FunctionDefinition} {file : SourceFile} {α : Type}

/-! ## Functions -/

theorem edit_staysGrounded {e : Edit α} (h : KeepsTypes e) : StaysGrounded (edit e) :=
  Secures.preserves (P := fun _ _ => True) fun s => Hands.edit fun hp =>
    Runs.mono (h s.program) (fun _ _ same => ⟨hp.withSame same, trivial⟩)
      fun _ _ same => hp.withSame same

theorem count_staysGrounded (f : Stats → Stats) : StaysGrounded (count f) :=
  .modify fun _ hs => ⟨{ hs with }, Nat.le_refl _⟩

theorem findOrMake_staysGrounded (d : FunctionDefinition) (low last : Bound) :
    StaysGrounded (findOrMake d low last) := by
  have make : StaysGrounded (makeAt d last low) := by
    cases low with
    | whole low =>
        exact edit_staysGrounded (.ite (Program.keepsTypes_createFunction _ _ _ _)
          (Program.keepsTypes_createFunction _ _ _ _))
    | real x =>
        refine .get fun s => ?_
        dsimp only
        split
        · exact .throw _
        · split
          · split <;> exact .throw _
          · exact .throw _
  have there : StaysGrounded (do return foundAt (← get).program low : ImportM (Option Int)) :=
    .get fun _ => .pure _
  refine there.bind fun found => ?_
  cases found with
  | some entry => exact .pure _
  | none => exact (Preserves.onRejection make fun _ => .diagnose _ _).bind fun _ => there

theorem nameFunction_staysGrounded (entry : Int) (d : FunctionDefinition) (file : SourceFile) :
    StaysGrounded (nameFunction entry d file) := by
  have drop := edit_staysGrounded (KeepsTypes.get.bind fun p =>
    keepsTypes_dropStale entry d.common.name (p.symbolsAt entry))
  have rename := edit_staysGrounded (Program.keepsTypes_renameFunction entry d.common.name .analysis)
  exact drop.bind fun _ => (Preserves.onRejection rename (.reportFault _)).bind fun _ =>
    edit_staysGrounded (Program.keepsTypes_editFunction _ _)

theorem setReturnType_staysGrounded (entry : Int) (typed : (Node.functionType d.type).WellTyped) :
    StaysGrounded (setReturnType entry d) := by
  unfold setReturnType
  split
  · exact .pure _
  · next node hnode =>
      have part : node ∈ (Node.functionType d.type).parts :=
        List.mem_append_left _ (by simp [hnode])
      have made : StaysGrounded (typeOf node .null) :=
        (grounded_supply.typeOf (fun _ => typed.part part) fun _ => .inl rfl).preserves
      exact .onTypeFault ((Preserves.inside 1 made).bind fun _ =>
        edit_staysGrounded (Program.keepsTypes_setReturnType _ _)) (.reportFault _)

theorem variableTypeOf_hands {node : Node} (typed : node.WellTyped) :
    Hands s (variableTypeOf (some node)) fun id a => id < a.size :=
  grounded_supply.variableTypeOf fun _ n hn => by
    cases hn
    exact typed

/-- A parameter passed by reference has the type of a pointer. -/
theorem parameterType_hands {v : Variable} (typed : v.type.WellTyped) :
    Hands s (parameterType v) fun id a => id < a.size := by
  refine Secures.bind (.inside 3 fun _ => variableTypeOf_hands typed) fun id t _ hid => ?_
  split
  · exact pointerTo_hands hid
  · exact .pure hid

theorem parametersOf_staysGrounded {vs : List Variable} (typed : ∀ v ∈ vs, v.type.WellTyped) :
    StaysGrounded (parametersOf vs) := by
  induction vs with
  | nil => exact .pure _
  | cons v rest ih =>
      have hrest := ih fun w hw => typed w (List.mem_cons_of_mem _ hw)
      rw [parametersOf_cons]
      refine (Secures.preserves fun _ =>
        parameterType_hands (typed v List.mem_cons_self)).bind fun type => ?_
      split
      · exact (Preserves.throw _).bind fun _ => hrest.bind fun _ => .pure _
      · exact (Preserves.pure _).bind fun _ => hrest.bind fun _ => .pure _

theorem setParameters_staysGrounded (entry : Int) (typed : (Node.functionType d.type).WellTyped) :
    StaysGrounded (setParameters entry d) := by
  have declared : ∀ v ∈ d.type.parameters.getD [], v.type.WellTyped := fun v hv =>
    typed.part (List.mem_append_right _ (List.mem_map_of_mem hv))
  have replace : StaysGrounded (do
      let parameters ← parametersOf (d.type.parameters.getD [])
      onRejection
        (do
          edit (Program.replaceParameters entry parameters)
          count fun t => { t with parameters := t.parameters + parameters.length })
        fun e => diagnose functionsSource
          s!"Failed to setup parameters for {d.common.name.plain}: {e.message}") :=
    (parametersOf_staysGrounded declared).bind fun parameters => .onRejection
      ((edit_staysGrounded (Program.keepsTypes_replaceParameters _ _)).bind fun _ =>
        count_staysGrounded _) fun _ => .diagnose _ _
  unfold setParameters
  dsimp only
  split
  · exact .pure _
  · exact replace

theorem setLocals_staysGrounded (entry : Int) (typed : ∀ v ∈ d.locals, v.type.WellTyped) :
    StaysGrounded (setLocals entry d) := by
  have add {locals : List (Json × Variable)} (hl : ∀ l ∈ locals, l.2.type.WellTyped) :
      StaysGrounded (addLocals entry locals) := by
    induction locals with
    | nil => exact .pure _
    | cons l rest ih =>
        have hrest := ih fun k hk => hl k (List.mem_cons_of_mem _ hk)
        have type : StaysGrounded (variableTypeOf (some l.2.type)) :=
          Secures.preserves fun _ => variableTypeOf_hands (hl l List.mem_cons_self)
        refine (Preserves.inside 3 type).bind fun id => ?_
        refine (Preserves.onRejection ?_ (.reportFault _)).bind fun _ => hrest
        exact (edit_staysGrounded (Program.keepsTypes_addLocal _ _ _ _)).bind fun _ =>
          count_staysGrounded _
  have stack : ∀ l ∈ (stackLocalsBeside (parameterNames d) d).entries, l.2.type.WellTyped :=
    fun l hl => typed l.2 (mem_stackLocals hl).1
  unfold setLocals setLocalsBeside
  dsimp only
  split
  · exact (Preserves.throw _).bind fun _ => add stack
  · exact add stack

theorem commenting_staysGrounded {β : Type} {f : β → Edit PUnit} (h : ∀ b, KeepsTypes (f b))
    (l : List β) (counts : Stats → Stats) :
    StaysGrounded (do edit (l.forM f); count counts) :=
  (edit_staysGrounded (keepsTypes_forM h l)).bind fun _ => count_staysGrounded _

theorem importFunction_staysGrounded (typed : Document.WellTypedFunction d) (file : SourceFile) :
    StaysGrounded (importFunction d file) := by
  have locals (entry : Int) : StaysGrounded (do setLocals entry d; return true) :=
    (setLocals_staysGrounded entry fun v hv => (typed.locals v hv).2).bind fun _ => .pure _
  have inlined (entry : Int) : StaysGrounded (do
      if (← MonadState.get).markInlined then markInlined d file
      setLocals entry d
      return true) := .get fun s => by
    dsimp only
    split
    · exact (commenting_staysGrounded (fun _ => Program.keepsTypes_setComment _ _ _) _ _).bind
        fun _ => locals entry
    · exact locals entry
  rw [importFunction]
  refine Preserves.bind ?_ fun range => ?_
  · split
    · exact .pure _
    · exact .throw _
  · refine (findOrMake_staysGrounded _ _ _).bind fun found => ?_
    cases found with
    | none => exact .pure _
    | some entry =>
        refine (nameFunction_staysGrounded entry d file).bind fun _ =>
          (setReturnType_staysGrounded entry typed.type).bind fun _ =>
          (setParameters_staysGrounded entry typed.type).bind fun _ => .get fun s => ?_
        dsimp only
        split
        · exact (commenting_staysGrounded (fun _ => Program.keepsTypes_setComment _ _ _) _ _).bind
            fun _ => inlined entry
        · exact inlined entry

theorem importFunctionsFrom_staysGrounded {l : List (FunctionDefinition × SourceFile)}
    (typed : ∀ x ∈ l, Document.WellTypedFunction x.1) : StaysGrounded (importFunctionsFrom l) := by
  induction l with
  | nil => exact .pure _
  | cons x rest ih =>
      obtain ⟨d, file⟩ := x
      have hrest := ih fun y hy => typed y (List.mem_cons_of_mem _ hy)
      refine grounded_supply.isCancelled.bind fun cancelled => ?_
      dsimp only
      split
      · exact .pure _
      split
      · exact (count_staysGrounded _).bind fun _ => hrest
      · refine (importFunction_staysGrounded (typed _ List.mem_cons_self) file).bind fun made => ?_
        split <;> exact (count_staysGrounded _).bind fun _ => hrest

/-- What follows on the preparation of a table may rely on the document being well typed. -/
theorem afterPreparing_staysGrounded {f : Session → ImportM α}
    (h : ∀ s, s.document.WellTyped → StaysGrounded (f s)) :
    StaysGrounded (do prepare; f (← get)) :=
  Secures.preserves (P := fun _ _ => True) fun _ =>
    .after grounded_supply.prepare fun _ t ht => .get (.of (h t ht.grounded.typed))

theorem importFunctions_staysGrounded : StaysGrounded importFunctions := by
  refine afterPreparing_staysGrounded fun s typed => importFunctionsFrom_staysGrounded ?_
  intro x hx
  obtain ⟨file, hfile, hx⟩ := List.mem_flatMap.mp hx
  obtain ⟨d, hd, rfl⟩ := List.mem_map.mp hx
  exact (typed.files file hfile).functions d hd

/-! ## Globals -/

theorem placeGlobal_staysGrounded {v : Variable} (typed : v.type.WellTyped) :
    StaysGrounded (placeGlobal v) := by
  have type : StaysGrounded (variableTypeOf (some v.type)) :=
    Secures.preserves fun _ => variableTypeOf_hands typed
  have data (id : TypeId) : StaysGrounded (do
      edit (Program.createData v.storage.globalAddress id (← typeLength id) true)) :=
    (typeLength_staysGrounded id).bind fun _ =>
      edit_staysGrounded (Program.keepsTypes_createData _ _ _ _)
  have label : StaysGrounded (do
      discard (edit (Program.createLabel (.ofInt v.storage.globalAddress) v.common.name true))) :=
    (edit_staysGrounded (Program.keepsTypes_createLabel _ _ _)).bind fun _ => .pure _
  exact (Preserves.inside 1 type).bind fun id =>
    (Preserves.onRejection (data id) (.reportFault _)).bind fun _ =>
    (Preserves.onRejection label (.reportFault _)).bind fun _ => count_staysGrounded _

theorem importGlobals_staysGrounded : StaysGrounded importGlobals := by
  have from_ {vs : List Variable} (typed : ∀ v ∈ vs, v.type.WellTyped) :
      StaysGrounded (importGlobalsFrom vs) := by
    induction vs with
    | nil => exact .pure _
    | cons v rest ih =>
        have hrest := ih fun w hw => typed w (List.mem_cons_of_mem _ hw)
        refine grounded_supply.isCancelled.bind fun cancelled => ?_
        split
        · exact .pure _
        split
        · exact (placeGlobal_staysGrounded (typed v List.mem_cons_self)).bind fun _ => hrest
        · exact hrest
  refine afterPreparing_staysGrounded fun s typed => from_ ?_
  intro v hv
  obtain ⟨file, hfile, hv⟩ := List.mem_flatMap.mp hv
  exact ((typed.files file hfile).globals v hv).2

/-! ## Whole imports -/

theorem sessionOf_grounded {d : Document} (typed : d.WellTyped) (h : s.program.Grounded)
    (room : Room) (o : Options) : (sessionOf room d o s).Grounded where
  typed := typed
  program := h
  builtIns h := by cases h
  pointers h := by cases h
  arrays h := by cases h
  nodes h := by cases h
  entries h := by simp [Session.typeAt?, sessionOf] at h

/-- A grounded session over a program with so many types at least. -/
structure Session.GroundedOver (n : Nat) (s : Session) : Prop where
  grounded : s.Grounded
  size_le : n ≤ s.program.arena.size

theorem Session.GroundedOver.builds {n : Nat} {t : Session} (h : s.GroundedOver n)
    (ht : Builds s t) : t.GroundedOver n :=
  ⟨ht.grounded, Nat.le_trans h.size_le ht.size_le⟩

/-- Wherever the import ends, types can be made from the session it leaves as from any other. -/
theorem importDocument_grounded {d : Document} {i : Importer} (typed : d.WellTyped)
    (h : i.session.program.Grounded) :
    Runs (importDocument d) i (fun _ j => j.session.GroundedOver i.session.program.arena.size)
      fun _ j => j.session.GroundedOver i.session.program.arena.size := by
  have keeps {m : ImportM Unit} {n : Nat} (hm : StaysGrounded m) :
      KeepsTo (Session.GroundedOver n) m := fun s hs =>
    Runs.mono (hm s) (fun _ _ ht => hs.builds (ht hs.grounded)) fun _ _ ht =>
      hs.builds (ht hs.grounded)
  refine importDocument_keepsTo (fun _ _ h => ⟨{ h.grounded with }, h.size_le⟩) ?_
    ⟨sessionOf_grounded typed h _ _, Nat.le_refl _⟩
  simp only [List.forall_mem_cons]
  exact ⟨keeps grounded_supply.prepare, keeps grounded_supply.importTypes,
    keeps importFunctions_staysGrounded, keeps importGlobals_staysGrounded, nofun⟩

end Import

end StabsImport

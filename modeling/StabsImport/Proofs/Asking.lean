import StabsImport.Proofs.Lockstep
import StabsImport.Proofs.Stagewise

/-!
# What the items of a document ask for

Functions and globals ask for types, one after another, and leave all else alone that types depend
on. Which types they ask for goes by the document alone. Main statements: `importFunction_consults`,
`placeGlobal_consults`.
-/

namespace StabsImport.Import

open Document (FunctionDefinition SourceFile Variable Node)

open Program

variable {s t u : Session} {α β : Type}
  {m : ImportM α} {l l' : List (ImportM TypeId)}

/-- The sessions are the same in all that types depend on. -/
structure SameGrounds (s t : Session) : Prop where
  document : t.document = s.document
  room : t.room = s.room
  knows : t.knowsPointerSize = s.knowsPointerSize
  arena : t.program.arena = s.program.arena
  pointerSize : t.program.pointerSize = s.program.pointerSize
  table : t.table = s.table
  prepared : t.isPrepared = s.isPrepared
  cache : t.cache = s.cache

instance : Stepwise SameGrounds where
  refl _ := ⟨rfl, rfl, rfl, rfl, rfl, rfl, rfl, rfl⟩
  trans h h' :=
    ⟨h'.document.trans h.document, h'.room.trans h.room, h'.knows.trans h.knows,
      h'.arena.trans h.arena, h'.pointerSize.trans h.pointerSize, h'.table.trans h.table,
      h'.prepared.trans h.prepared, h'.cache.trans h.cache⟩
  report _ _ := ⟨rfl, rfl, rfl, rfl, rfl, rfl, rfl, rfl⟩
  inside _ h := ⟨h.document, rfl, h.knows, h.arena, h.pointerSize, h.table, h.prepared, h.cache⟩

theorem SameGrounds.edited {p : Program} (h : SameTypes s.program p) :
    SameGrounds s { s with program := p } :=
  ⟨rfl, rfl, rfl, h.arena, h.pointerSize, rfl, rfl, rfl⟩

/-- Only what is no part of it was changed. -/
theorem SameGrounds.aside (s : Session) (journal : Journal) (monitor : Monitor) (stats : Stats) :
    SameGrounds s { s with journal, monitor, stats } := ⟨rfl, rfl, rfl, rfl, rfl, rfl, rfl, rfl⟩

/-- In between the sessions these types were asked for, in turn. -/
inductive Answered : List (ImportM TypeId) → Session → Session → Prop where
  | done {s t : Session} (same : SameGrounds s t) : Answered [] s t
  | ask {m : ImportM TypeId} {l : List (ImportM TypeId)} {s t u : Session}
      (same : SameGrounds s t) (later : Answered l (m t).2 u) : Answered (m :: l) s u

namespace Answered

theorem before (same : SameGrounds s t) (h : Answered l t u) : Answered l s u := by
  cases h with
  | done same' => exact .done (Stepwise.trans same same')
  | ask same' later => exact .ask (Stepwise.trans same same') later

theorem append (h : Answered l s t) (h' : Answered l' t u) : Answered (l ++ l') s u := by
  induction h with
  | done same => exact h'.before same
  | ask same _ ih => exact .ask same (ih h')

theorem asked {m : ImportM TypeId} (h : (m s).2 = t) (same : SameGrounds t u) :
    Answered [m] s u :=
  .ask (Stepwise.refl s) (.done (h ▸ same))

end Answered

/-! ## Work that asks for types -/

/-- Unless it fails, it asks for these types in turn. -/
def Consults (m : ImportM α) (l : List (ImportM TypeId)) : Prop :=
  ∀ s, Runs m s (fun _ t => Answered l s t) fun _ _ => True

namespace Consults

theorem none (h : Preserves SameGrounds m) : Consults m [] := fun s =>
  Runs.mono (h s) (fun _ _ same => .done same) fun _ _ _ => trivial

theorem ask (m : ImportM TypeId) : Consults m [m] := fun s =>
  Runs.mono (Runs.self m s) (fun _ t h => .asked (congrArg Prod.snd h) (Stepwise.refl t)) fun _ _ _ =>
    trivial

theorem bind {f : α → ImportM β} (h : Consults m l) (hf : ∀ a, Consults (f a) l') :
    Consults (m >>= f) (l ++ l') := fun s => by
  rw [Runs.bind_iff]
  refine Runs.mono (h s) (fun a t ht => ?_) fun _ _ _ => trivial
  exact Runs.mono (hf a t) (fun _ _ hu => ht.append hu) fun _ _ _ => trivial

/-- What is done before asks for nothing. -/
theorem after {f : α → ImportM β} (h : Preserves SameGrounds m) (hf : ∀ a, Consults (f a) l) :
    Consults (m >>= f) l :=
  (none h).bind hf

/-- What is done then asks for nothing. -/
theorem before {f : α → ImportM β} (h : Consults m l) (hf : ∀ a, Preserves SameGrounds (f a)) :
    Consults (m >>= f) l := by
  rw [← List.append_nil l]
  exact h.bind fun a => .none (hf a)

end Consults

theorem keeps {e : Edit α} (h : KeepsTypes e) : Preserves SameGrounds (edit e) := fun s => by
  rw [runs_edit]
  exact Runs.mono (h s.program) (fun _ _ h => .edited h) fun _ _ h => .edited h

theorem count_grounded (f : Stats → Stats) : Preserves SameGrounds (count f) :=
  .modify fun s => .aside s s.journal s.monitor (f s.stats)

variable {x : FunctionDefinition} {file : SourceFile} {entry : Int}

theorem nameFunction_grounded : Preserves SameGrounds (nameFunction entry x file) :=
  (keeps (KeepsTypes.get.bind fun _ => keepsTypes_dropStale _ _ _)).bind fun _ =>
    (Preserves.onRejection (keeps (keepsTypes_renameFunction _ _ _)) fun _ => .diagnose _ _).bind
      fun _ => keeps (keepsTypes_editFunction _ _)

/-- The types that the function of a definition asks for. -/
def asksOf (x : FunctionDefinition) : List (ImportM TypeId) :=
  (x.type.returnType.toList.map fun n => inside 1 (typeOf n .null)) ++
    (x.type.parameters.getD []).map parameterType ++
    (stackLocals x).entries.map fun e => inside 3 (variableTypeOf (some e.2.type))

theorem report_grounded (e : Fault) : Preserves SameGrounds (reportFault functionsSource e) :=
  .diagnose _ _

/-- A return type that cannot be made was asked for all the same. -/
theorem setReturnType_consults : Consults (setReturnType entry x)
    (x.type.returnType.toList.map fun n => inside 1 (typeOf n .null)) := by
  unfold setReturnType
  cases x.type.returnType with
  | none => exact .none (.pure ())
  | some node =>
      intro s
      rw [runs_onTypeFault, Runs.bind_iff]
      refine Runs.mono (Runs.self _ s) (fun id t h => ?_) fun e t h => ?_
      · refine Runs.mono (keeps (keepsTypes_setReturnType entry (some id)) t)
          (fun _ u same => .asked (congrArg Prod.snd h) same) fun e u same => ?_
        split
        · exact Runs.mono (report_grounded e u)
            (fun _ v same' => .asked (congrArg Prod.snd h) (Stepwise.trans same same'))
            fun _ _ _ => trivial
        · trivial
      · split
        · exact Runs.mono (report_grounded e t)
            (fun _ v same => .asked (congrArg Prod.snd h) same) fun _ _ _ => trivial
        · trivial

theorem parametersOf_consults (vs : List Variable) :
    Consults (parametersOf vs) (vs.map parameterType) := by
  induction vs with
  | nil => exact .none (.pure [])
  | cons v rest ih =>
      rw [parametersOf_cons, List.map_cons, ← List.singleton_append]
      refine (Consults.ask _).bind fun id => ?_
      split
      · exact fun _ => trivial
      · exact ih.before fun _ => .pure _

theorem setParameters_consults : Consults (setParameters entry x)
    ((x.type.parameters.getD []).map parameterType) := by
  unfold setParameters
  dsimp only
  split
  · next h =>
      rw [List.isEmpty_iff.mp h]
      exact .none (.pure ())
  · refine (parametersOf_consults _).before fun declared => ?_
    exact .onRejection ((keeps (keepsTypes_replaceParameters _ _)).bind fun _ => count_grounded _)
      fun _ => .diagnose _ _

theorem addLocals_consults (entries : List (Json × Variable)) : Consults (addLocals entry entries)
    (entries.map fun e => inside 3 (variableTypeOf (some e.2.type))) := by
  induction entries with
  | nil => exact .none (.pure ())
  | cons e rest ih =>
      rw [addLocals, List.map_cons, ← List.singleton_append]
      refine (Consults.ask _).bind fun id => ?_
      refine .after ?_ fun _ => ih
      exact .onRejection ((keeps (keepsTypes_addLocal _ _ _ _)).bind fun _ => count_grounded _)
        fun _ => .diagnose _ _

theorem annotateLines_grounded : Preserves SameGrounds (annotateLines x) := by
  refine .get fun s => ?_
  split
  · exact (keeps (keepsTypes_forM (fun _ => keepsTypes_setComment _ _ _) _)).bind fun _ =>
      count_grounded _
  · exact .pure ()

theorem annotateInlined_grounded : Preserves SameGrounds (annotateInlined x file) := by
  refine .get fun s => ?_
  split
  · exact (keeps (keepsTypes_forM (fun _ => keepsTypes_setComment _ _ _) _)).bind fun _ =>
      count_grounded _
  · exact .pure ()

theorem setLocals_consults (typed : Document.WellTypedFunction x) : Consults (setLocals entry x)
    ((stackLocals x).entries.map fun e => inside 3 (variableTypeOf (some e.2.type))) := by
  rw [setLocals, setLocalsBeside_eq typed]
  exact addLocals_consults (stackLocals x).entries

theorem describe_consults (typed : Document.WellTypedFunction x) : Consults (do
    nameFunction entry x file
    setReturnType entry x
    setParameters entry x
    annotateLines x
    annotateInlined x file
    setLocals entry x) (asksOf x) := by
  unfold asksOf
  rw [List.append_assoc]
  exact .after nameFunction_grounded fun _ => setReturnType_consults.bind fun _ =>
    setParameters_consults.bind fun _ => .after annotateLines_grounded fun _ =>
      .after annotateInlined_grounded fun _ => setLocals_consults typed

theorem findOrMake_grounded (low last : Bound) : Preserves SameGrounds (findOrMake x low last) := by
  have make : Preserves SameGrounds (makeAt x last low) := by
    cases low with
    | whole low =>
        exact keeps (.ite (keepsTypes_createFunction _ _ _ _) (keepsTypes_createFunction _ _ _ _))
    | real y =>
        refine .get fun s => ?_
        dsimp only
        split
        · exact .throw _
        · split
          · split
            · exact .throw _
            · exact .throw _
          · exact .throw _
  intro s
  rw [runs_findOrMake]
  cases foundAt s.program low with
  | some entry => exact Stepwise.refl s
  | none =>
      refine Runs.mono (make s) (fun _ _ h => h) fun e t h => ?_
      split
      · have reported (message : String) : Preserves SameGrounds (diagnose functionsSource message) :=
          .diagnose _ _
        exact Runs.mono (reported _ t) (fun _ _ h' => Stepwise.trans h h') fun _ _ h' =>
          Stepwise.trans h h'
      · exact h

/-- A definition asks for its types if there is a function to tell. -/
theorem importFunction_consults (typed : Document.WellTypedFunction x) (s : Session) :
    Runs (importFunction x file) s
      (fun made t => Answered (if made then asksOf x else []) s t) fun _ _ => True := by
  rw [importFunction_eq]
  cases bodyOf x with
  | error e => trivial
  | ok range =>
      rw [pure_bind, Runs.bind_iff]
      refine Runs.mono (findOrMake_grounded _ _ s) (fun found t same => ?_) fun _ _ _ => trivial
      cases found with
      | none => exact .done same
      | some entry =>
          have split : (do
              nameFunction entry x file
              setReturnType entry x
              setParameters entry x
              annotateLines x
              annotateInlined x file
              setLocals entry x
              return true : ImportM Bool) = (do
                nameFunction entry x file
                setReturnType entry x
                setParameters entry x
                annotateLines x
                annotateInlined x file
                setLocals entry x) >>= fun _ => pure true := by simp only [bind_assoc]
          dsimp only
          rw [split, Runs.bind_iff]
          exact Runs.mono (describe_consults typed t) (fun _ _ h => h.before same) fun _ _ h => h

/-! ## Globals -/

/-- The type that a global asks for. -/
def askOf (v : Variable) : ImportM TypeId := inside 1 (variableTypeOf (some v.type))

theorem placeGlobal_consults (v : Variable) : Consults (placeGlobal v) [askOf v] := by
  refine (Consults.ask (askOf v)).before fun id => ?_
  refine (Preserves.onRejection ?_ fun _ => .diagnose _ _).bind fun _ => ?_
  · exact (keeps (keepsTypes_typeLength id)).bind fun _ => keeps (keepsTypes_createData _ _ _ _)
  · refine (Preserves.onRejection ?_ fun _ => .diagnose _ _).bind fun _ => count_grounded _
    exact (keeps (keepsTypes_createLabel _ _ _)).bind fun _ => .pure _

end StabsImport.Import

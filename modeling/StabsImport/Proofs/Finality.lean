import StabsImport.Proofs.Completion

/-!
# An importer that has run

No phase follows the last ones, so whatever an importer in one of them is asked for is refused. A
document that is handed over is taken up before it is refused: the importer keeps what it brought
about, but no longer knows the types it has made. Main statement: `serveAll_of_final`.
-/

namespace StabsImport.Import

/-- The phases a run ends with, whether it went through or gave up. -/
def Phase.isFinal : Phase → Bool
  | done | aborted => true
  | _ => false

theorem Phase.next_of_isFinal {phase : Phase} (final : phase.isFinal = true) (target : Phase) :
    target ∉ phase.next := by
  cases phase with
  | done | aborted => exact List.not_mem_nil
  | _ => cases final

/-- What an importer can be asked for. -/
inductive Request where
  /-- To get a document and to import it. -/
  | input
  /-- To import a document that has been read. -/
  | document (d : Document)

namespace Request

def act : Request → RunM Unit
  | input => do
      let _ ← importInput
  | document d => importDocument d

def document? : Request → Option Document
  | input => none
  | document d => some d

/-- The first phase that is not entered from a last one. -/
def entry : Request → Phase
  | input => .preparingInput
  | document _ => .importingTypes

def WellTyped : Request → Prop
  | input => True
  | document d => d.WellTyped

end Request

/-- Asks for one thing after the other, whatever becomes of each. -/
def serveAll : List Request → Importer → List (Except RunFault Unit) × Importer
  | [], i => ([], i)
  | request :: rest, i =>
      let (result, i) := request.act i
      let (results, i) := serveAll rest i
      (result :: results, i)

/-- An importer with a session of the document in which nothing has been resolved. -/
def takingUp (i : Importer) (d : Document) : Importer :=
  { i with
    session :=
      { sessionOf (i.host.room.inside 3) d i.options i.session with
        table := Array.replicate d.types.length none
        isPrepared := true }
    isStarted := true }

/-- Of the documents taken up in turn only the last is known. -/
theorem takingUp_takingUp (i : Importer) (d d' : Document) :
    takingUp (takingUp i d) d' = takingUp i d' := rfl

variable {i j : Importer} {d : Document}

theorem takeUp_eq (keys : ∀ node ∈ d.types, node.name.isKey = true) (i : Importer) :
    takeUp (i.host.room.inside 3) d i = (.ok (), takingUp i d) := by
  have prepared : Runs prepare (sessionOf (i.host.room.inside 3) d i.options i.session)
      (fun _ t => t = (takingUp i d).session) fun _ _ => False :=
    Runs.of_eq (prepare_of_new rfl keys) rfl
  refine Runs.eq_ok ?_
  rw [takeUp, Runs.bind_iff, Runs.modify_iff, Runs.bind_iff]
  refine Runs.mono (within_ends prepared) ?_ fun _ _ h => h
  rintro _ _ ⟨_, t, rfl, rfl, rfl⟩
  exact ⟨rfl, rfl⟩

namespace Request

/-- What a request leaves of an importer that has run. -/
def after (i : Importer) (request : Request) : Importer :=
  request.document?.elim i (takingUp i)

theorem after_phase (i : Importer) (request : Request) : (request.after i).phase = i.phase := by
  cases request <;> rfl

/-- A request to an importer that has run is refused where the first phase is entered. -/
theorem act_of_final (final : i.phase.isFinal = true) {request : Request}
    (typed : request.WellTyped) :
    request.act i = (.error (.wrongPhase i.phase request.entry), request.after i) := by
  refine Runs.eq_error ?_
  cases request with
  | input =>
      rw [act, Runs.bind_iff, importInput, Runs.bind_iff, Runs.get_iff, importInputWithin,
        Runs.bind_iff, runs_enterPhase_refused (Phase.next_of_isFinal final _)]
      exact ⟨rfl, rfl⟩
  | document d =>
      have busy : i.phase ≠ .idle := by
        intro idle
        rw [idle] at final
        cases final
      have keys (node : Document.Node) (hnode : node ∈ d.types) :
          node.name.isKey = true :=
        (typed.types node hnode).typed.name.isKey
      rw [act, importDocument, Runs.bind_iff, Runs.get_iff, importWithin_eq, Runs.bind_iff,
        Runs.get_iff, if_neg busy, runStages, Runs.bind_iff]
      refine Runs.of_eq (takeUp_eq keys i) ?_
      have refused : Phase.importingTypes ∉ (takingUp i d).phase.next :=
        Phase.next_of_isFinal final _
      rw [Runs.bind_iff, Runs.get_iff, Runs.bind_iff, runPhase, Runs.bind_iff,
        runs_enterPhase_refused refused]
      exact ⟨rfl, rfl⟩

end Request

/-- An importer that has run, whatever it is asked for: each request is refused, and all that is
not as it was is the session of the document last handed over, if there was one. -/
structure StaysFinal (requests : List Request) (i : Importer) : Prop where
  refused : (serveAll requests i).1 =
    requests.map fun request => .error (.wrongPhase i.phase request.entry)
  left : (serveAll requests i).2 =
    (requests.filterMap Request.document?).getLast?.elim i (takingUp i)

namespace StaysFinal

variable {requests : List Request}

/-- The program, the phase, the counts and the journal, and all but the session, are as they
were. -/
theorem keeps (h : StaysFinal requests i) :
    ∃ s b, (serveAll requests i).2 = { i with session := s, isStarted := b } ∧
      s.program = i.session.program ∧ s.journal = i.session.journal ∧
      s.stats = i.session.stats ∧ s.monitor = i.session.monitor := by
  rw [h.left]
  cases (requests.filterMap Request.document?).getLast? with
  | none => exact ⟨i.session, i.isStarted, rfl, rfl, rfl, rfl, rfl⟩
  | some d => exact ⟨(takingUp i d).session, true, rfl, rfl, rfl, rfl, rfl⟩

end StaysFinal

theorem serveAll_of_final (final : i.phase.isFinal = true) {requests : List Request}
    (typed : ∀ request ∈ requests, request.WellTyped) : StaysFinal requests i := by
  induction requests generalizing i with
  | nil => exact ⟨rfl, rfl⟩
  | cons request rest ih =>
      have act := Request.act_of_final final (typed request List.mem_cons_self)
      have phase := request.after_phase i
      have others := ih (i := request.after i) (by rw [phase, final])
        fun r hr => typed r (List.mem_cons_of_mem _ hr)
      have served : serveAll (request :: rest) i =
          (.error (.wrongPhase i.phase request.entry) :: (serveAll rest (request.after i)).1,
            (serveAll rest (request.after i)).2) := by
        rw [serveAll, act]
      constructor
      · rw [served, others.refused, phase]
        rfl
      · rw [served, others.left]
        cases request with
        | input => rfl
        | document d =>
            rw [List.filterMap_cons_some (f := Request.document?) rfl, List.getLast?_cons]
            cases (rest.filterMap Request.document?).getLast? with
            | none => rfl
            | some d' => exact takingUp_takingUp i d d'

/-- A document with one enumeration. -/
def colorDocument : Document where
  types := [.enumeration { serial := 0, name := .text "Color" } [(0, .text "RED")]]
  files := []

theorem colorDocument_wellTyped : colorDocument.WellTyped := by
  constructor
  · intro node hnode
    rw [List.mem_singleton.mp hnode]
    refine Document.Node.wellTyped_iff.mpr ⟨⟨.inr ⟨_, rfl⟩, ?_⟩, nofun⟩
    intro k hk
    rw [List.mem_singleton.mp hk]
    exact .inr ⟨_, rfl⟩
  · exact nofun

/-- An importer that has imported the document. -/
def importedColors : Importer :=
  (importDocument colorDocument (Importer.start {} {} { room := .usual } {})).2

theorem serveAll_of_final_colors :
    importedColors.phase.isFinal = true ∧
      (∀ request ∈ [.document colorDocument, .input, .input], Request.WellTyped request) ∧
      StaysFinal [.document colorDocument, .input, .input] importedColors := by
  have final : importedColors.phase.isFinal = true := by decide +kernel
  have typed : ∀ request ∈ [.document colorDocument, .input, .input],
      Request.WellTyped request := by
    simp [Request.WellTyped, colorDocument_wellTyped]
  exact ⟨final, typed, serveAll_of_final final typed⟩

/-- What was made of the document is no longer known once it is handed over again, although that is
refused. -/
theorem importedColors_forgets :
    importedColors.phase = .done ∧ colorDocument.WellTyped ∧
      importedColors.session.table = #[some 0] ∧
      (Request.act (.document colorDocument) importedColors).1 =
        .error (.wrongPhase .done .importingTypes) ∧
      (Request.act (.document colorDocument) importedColors).2.session.table = #[none] := by
  have final : importedColors.phase.isFinal = true := by decide +kernel
  have done : importedColors.phase = .done := by decide +kernel
  have typed : (Request.document colorDocument).WellTyped := colorDocument_wellTyped
  have act := Request.act_of_final final typed
  refine ⟨done, colorDocument_wellTyped, by decide +kernel, ?_, ?_⟩
  · rw [act, done]
    rfl
  · rw [act]
    rfl

end StabsImport.Import

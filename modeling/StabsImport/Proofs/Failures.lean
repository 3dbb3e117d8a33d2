import StabsImport.Proofs.Completion

/-!
# What a failed run leaves behind

A run fails where its document cannot be got or read, and has not touched the program by then. Once
a document is read, the run succeeds, if the document's values are of the right kinds.
-/

namespace StabsImport.Import

variable {i j : Importer} {α β : Type} {d : Document}

/-- Nothing but the host, the phase and what was reported is another. -/
structure OnlyReports (i j : Importer) : Prop where
  options : j.options = i.options
  session : j.session = { i.session with journal := j.session.journal }

namespace OnlyReports

theorem refl (i : Importer) : OnlyReports i i := ⟨rfl, rfl⟩

theorem program (h : OnlyReports i j) : j.session.program = i.session.program := by
  rw [h.session]

end OnlyReports

/-- The action leaves all but the host, the phase and the reports alone. -/
def KeepsSession (m : RunM α) : Prop :=
  ∀ i, Runs m i (fun _ j => OnlyReports i j) fun _ j => OnlyReports i j

namespace KeepsSession

theorem throw (e : RunFault) : KeepsSession (throw e : RunM α) := .refl

theorem get {f : Importer → RunM α} (h : ∀ i, KeepsSession (f i)) : KeepsSession (get >>= f) :=
  fun i => h i i

theorem notify (notice : Notice) : KeepsSession (notify notice) := fun _ => ⟨rfl, rfl⟩

theorem enterPhase (target : Phase) : KeepsSession (enterPhase target) := by
  refine get fun i => ?_
  dsimp only
  split
  · exact fun _ => ⟨rfl, rfl⟩
  · exact throw _

end KeepsSession

/-! ## The input -/

/-- The document that a run finds, if it can be got and read. -/
def inputDocument? (room : Room) (i : Importer) : Option Document :=
  match (acquire i.options i.session.program i.host).1.2 with
  | .error _ => none
  | .ok bytes => (Document.readBytes (room.inside 1) bytes).2.toOption

/-- Reports are given one after another, and nothing else is done. -/
theorem notifyAll_journal {f : β → Notice} (l : List β) (i : Importer) :
    Runs (l.forM fun b => notify (f b)) i
      (fun _ j => ∃ journal, j = { i with session.journal := journal }) fun _ _ => False := by
  induction l generalizing i with
  | nil => exact ⟨i.session.journal, rfl⟩
  | cons b rest ih =>
      show Runs (notify (f b) >>= fun _ => rest.forM fun b => notify (f b)) i _ _
      rw [Runs.bind_iff, notify, onSession, Runs.modify_iff]
      refine Runs.mono (ih _) ?_ fun _ _ h => h
      rintro _ _ ⟨journal, rfl⟩
      exact ⟨journal, rfl⟩

theorem abort_journal (h : Phase.aborted ∈ i.phase.next) (report : String) :
    Runs (abort report) i
      (fun success j => success = false ∧
        ∃ journal, j = { i with session.journal := journal, phase := .aborted })
      fun _ _ => False := by
  rw [abort, Runs.bind_iff, notify, onSession, Runs.modify_iff, Runs.bind_iff,
    runs_enterPhase (by exact h)]
  exact ⟨rfl, _, rfl⟩

theorem acquireText_journal (i : Importer) :
    Runs acquireText i
      (fun r j => r = (acquire i.options i.session.program i.host).1.2 ∧
        ∃ journal, j = { i with
          host := (acquire i.options i.session.program i.host).2, session.journal := journal })
      fun _ _ => False := by
  rw [acquireText, Runs.bind_iff, Runs.get_iff]
  rcases acquire i.options i.session.program i.host with ⟨⟨lines, result⟩, host⟩
  dsimp only
  rw [Runs.bind_iff, Runs.set_iff, Runs.bind_iff]
  refine Runs.mono (notifyAll_journal lines _) ?_ fun _ _ h => h
  rintro _ _ ⟨journal, rfl⟩
  exact ⟨rfl, journal, rfl⟩

/-- The importer once tools have been started and reports given, in some phase. -/
def afterInput (i : Importer) (journal : Journal) (phase : Phase) : Importer :=
  { i with
    host := (acquire i.options i.session.program i.host).2, session.journal := journal, phase }

/-- A run gives up or stops, or it has a document to import. -/
theorem runs_importInputWithin {room : Room} (idle : i.phase = .idle)
    {ok : Bool → Importer → Prop} {bad : RunFault → Importer → Prop}
    (aborts : inputDocument? room i = none →
      ∀ journal, ok false (afterInput i journal .aborted))
    (stops : inputDocument? room i = none →
      ∀ e journal phase, bad e (afterInput i journal phase))
    (imports : ∀ d journal, inputDocument? room i = some d →
      Runs (importWithin (room.inside 1) d) (afterInput i journal .parsing) (fun _ => ok true)
        bad) :
    Runs (importInputWithin room) i ok bad := by
  have hidle : Phase.preparingInput ∈ i.phase.next := by
    rw [idle]
    decide
  rw [importInputWithin, Runs.bind_iff, runs_enterPhase hidle, Runs.bind_iff]
  refine Runs.mono (acquireText_journal _) ?_ fun _ _ h => h.elim
  rintro r _ ⟨hr, journal, rfl⟩
  have hr : r = (acquire i.options i.session.program i.host).1.2 := hr
  cases r with
  | error e =>
      have none : inputDocument? room i = none := by rw [inputDocument?, ← hr]
      dsimp only
      split
      · refine Runs.mono (abort_journal (by simp [Phase.next]) _) ?_ fun _ _ h => h.elim
        rintro _ _ ⟨rfl, journal, rfl⟩
        exact aborts none journal
      · exact stops none _ journal _
  | ok bytes =>
      have found : inputDocument? room i =
          (Document.readBytes (room.inside 1) bytes).2.toOption := by
        rw [inputDocument?, ← hr]
      dsimp only
      rw [Runs.bind_iff, runs_enterPhase (by simp [Phase.next])]
      rcases hread : Document.readBytes (room.inside 1) bytes with ⟨warnings, result⟩
      rw [hread] at found
      dsimp only
      rw [Runs.bind_iff]
      refine Runs.mono (notifyAll_journal warnings _) ?_ fun _ _ h => h.elim
      rintro _ _ ⟨journal, rfl⟩
      cases result with
      | error e =>
          dsimp only
          split
          · refine Runs.mono (abort_journal (by simp [Phase.next]) _) ?_ fun _ _ h => h.elim
            rintro _ _ ⟨rfl, journal, rfl⟩
            exact aborts found journal
          · exact stops found _ journal _
      | ok d =>
          dsimp only
          rw [Runs.bind_iff]
          exact imports d journal found

/-! ## Runs that fail -/

/-- An importer whose document, if it finds one, can be imported to its end. -/
structure InputFits (room : Room) (i : Importer) : Prop where
  program : i.session.program.Sound
  naming : i.session.program.arena.room = none
  knowsPointerSize : i.session.knowsPointerSize = true
  aligned : i.session.program.convention.alignment ≠ 0
  document : ∀ d, inputDocument? room i = some d →
    d.WellTyped ∧ (room.inside 1).allows (3 + stageNeed d) = true

theorem InputFits.canFinish {room : Room} (h : InputFits room i) (hd : inputDocument? room i = some d)
    (hj : OnlyReports i j) (hp : j.phase = .parsing) : CanFinish (room.inside 1) d j where
  phase := .inr hp
  typed := (h.document d hd).1
  program := by
    rw [hj.program]
    exact h.program
  naming := by
    rw [hj.program]
    exact h.naming
  knowsPointerSize := by
    rw [hj.session]
    exact h.knowsPointerSize
  aligned := by
    rw [hj.program]
    exact h.aligned
  room := (h.document d hd).2

/-- The program is as before, and there is no document to be found. -/
def LeftAlone (room : Room) (i j : Importer) : Prop :=
  j.session.program = i.session.program ∧ (i.phase = .idle → inputDocument? room i = none)

/-- A run that fails found no document, or could not begin, and it has left the program alone. -/
theorem importInputWithin_ends {room : Room} (h : InputFits room i) :
    Runs (importInputWithin room) i (fun success j => success = false → LeftAlone room i j)
      fun _ j => LeftAlone room i j := by
  by_cases idle : i.phase = .idle
  · refine runs_importInputWithin idle (fun none _ _ => ⟨rfl, fun _ => none⟩)
      (fun none _ _ _ => ⟨rfl, fun _ => none⟩) fun d journal found => ?_
    refine Runs.mono (importWithin_ends (h.canFinish found ⟨rfl, rfl⟩ rfl)) ?_ fun _ _ h => h.elim
    intro _ _ _ h
    cases h
  · have refused : Phase.preparingInput ∉ i.phase.next := by
      cases hphase : i.phase <;> simp [Phase.next, hphase] at idle ⊢
    rw [importInputWithin, Runs.bind_iff, runs_enterPhase_refused refused]
    exact ⟨rfl, fun h => absurd h idle⟩

/-- A run that fails, for whatever reason, found no document to import, and has not touched the
program. -/
theorem run_failed (h : InputFits (i.host.room.inside 1) i) (failed : (run i).1 = false) :
    (run i).2.session.program = i.session.program ∧
      (i.phase = .idle → inputDocument? (i.host.room.inside 1) i = none) := by
  have hends := importInputWithin_ends h
  rw [Runs] at hends
  rw [run] at failed ⊢
  rcases hrun : importInputWithin (i.host.room.inside 1) i with ⟨_ | success, j⟩
  · rw [hrun] at hends
    exact hends
  · rw [hrun] at hends failed
    exact hends failed

/-- Without a document, an ELF file or an image of the program there is nothing to import. -/
theorem run_failed_empty :
    (run (Importer.start {} {} {} {})).1 = false ∧
      (run (Importer.start {} {} {} {})).2.session.program = {} := by
  let i := Importer.start {} {} {} {}
  have failed : (run i).1 = false := by decide +kernel
  have fits : InputFits (i.host.room.inside 1) i :=
    ⟨Program.sound_empty, rfl, rfl, by decide, nofun⟩
  exact ⟨failed, (run_failed fits failed).1⟩

/-! ## Ranges that are no numbers -/

theorem acquire_of_file {o : Options} {p : Program} {h : Host} {bytes : Text.Bytes}
    (named : o.jsonPath ≠ "") (hread : h.read o.jsonPath = .ok bytes) :
    acquire o p h = (([], .ok bytes), h) := by
  simp only [acquire, bind, StateT.bind, get, getThe, MonadStateOf.get, StateT.get, pure]
  rw [if_pos named, hread]
  rfl

/-- A run that finds a document at once, without a report, comes down to its import. -/
theorem runs_importInputWithin_of_document {room : Room} {bytes : Text.Bytes}
    {ok : Bool → Importer → Prop} {bad : RunFault → Importer → Prop} (hidle : i.phase = .idle)
    (hacquire : acquire i.options i.session.program i.host = (([], .ok bytes), i.host))
    (hread : Document.readBytes (room.inside 1) bytes = ([], .ok d)) :
    Runs (importInputWithin room) i ok bad ↔
      Runs (importWithin (room.inside 1) d) { i with phase := .parsing } (fun _ => ok true) bad := by
  have hnext : Phase.preparingInput ∈ i.phase.next := by simp [hidle, Phase.next]
  rw [importInputWithin, Runs.bind_iff, runs_enterPhase hnext, Runs.bind_iff, acquireText,
    Runs.bind_iff, Runs.get_iff]
  simp only [hacquire]
  rw [Runs.bind_iff, Runs.set_iff, Runs.bind_iff, List.forM, Runs.pure_iff, Runs.pure_iff]
  dsimp only
  rw [Runs.bind_iff, runs_enterPhase (by simp [Phase.next]), hread]
  dsimp only
  rw [Runs.bind_iff, List.forM, Runs.pure_iff, Runs.bind_iff]
  rfl

/-- An enumeration, and a function whose range starts at a text. -/
def strayText : List String :=
  ["\x7b\"files\":[\x7b\"descriptor\":\"source_file\",",
   "\"path\":\"a.c\",\"relative_path\":\"a.c\",",
   "\"functions\":[\x7b\"descriptor\":\"function_definition\",\"name\":\"f\",",
   "\"address_range\":\x7b\"low\":\"x\",\"high\":4\x7d,",
   "\"type\":\x7b\"descriptor\":\"function_type\"\x7d\x7d],",
   "\"globals\":[],",
   "\"stabs_type_number_to_deduplicated_type_index\":[]\x7d],",
   "\"deduplicated_types\":[\x7b\"descriptor\":\"enum\",\"name\":\"Color\",",
   "\"constants\":[\x7b\"name\":\"RED\",\"value\":0\x7d]\x7d]\x7d"]

/-- The text has no character that takes more than one byte. -/
def strayBytes : Text.Bytes := (strayText.flatMap String.toList).map fun c => c.toNat.toUInt8

/-- A host with that text in its one file. -/
def strayHost : Host := { files := ⟨[(["d"], strayBytes)]⟩, room := .usual }

def strayImporter : Importer := Importer.start {} { jsonPath := "d" } strayHost {}

theorem strayHost_read : strayHost.read "d" = .ok strayBytes := by
  have hsplit : Host.parts "d" = ["d"] := by decide +kernel
  have hfault : Host.pathFault? "d" = none := by decide +kernel
  have hstart : Host.start "d" = [] := by decide +kernel
  rw [Host.read, Host.locate, hfault, hsplit, hstart]
  rfl

/-- Whether an import of the document stops, with a type left in the program. -/
def stopsHalfway (room : Room) (d : Document) (i : Importer) : Bool :=
  match importWithin room d i with
  | (.error _, j) => !j.session.program.registry.entries.isEmpty
  | (.ok _, _) => false

theorem runs_of_stopsHalfway {room : Room} (h : stopsHalfway room d i) :
    Runs (importWithin room d) i (fun _ _ => False)
      fun _ j => j.session.program.registry.entries ≠ [] := by
  rw [stopsHalfway] at h
  rw [Runs]
  split at h
  · rename_i hrun
    rw [hrun]
    simpa using h
  · cases h

/-- Whether bytes are a document whose import stops so. -/
def holdsHalfway (room : Room) (bytes : Text.Bytes) (i : Importer) : Bool :=
  match Document.readBytes room bytes with
  | ([], .ok d) => stopsHalfway room d i
  | _ => false

theorem exists_of_holdsHalfway {room : Room} {bytes : Text.Bytes}
    (h : holdsHalfway room bytes i = true) :
    ∃ d, Document.readBytes room bytes = ([], .ok d) ∧ stopsHalfway room d i := by
  rw [holdsHalfway] at h
  split at h
  · next d hread => exact ⟨d, hread, h⟩
  · cases h

theorem strayBytes_stopsHalfway :
    ∃ d, Document.readBytes ((strayHost.room.inside 1).inside 1) strayBytes = ([], .ok d) ∧
      stopsHalfway ((strayHost.room.inside 1).inside 1) d
        { strayImporter with phase := .parsing } :=
  exists_of_holdsHalfway (by decide +kernel)

/-- A range that starts at a text is read as it is, and stops the run when the function is placed,
after the types: a run can fail and leave a type in the program. -/
theorem run_failed_halfway :
    (run strayImporter).1 = false ∧
      (run strayImporter).2.session.program.registry.entries ≠ [] := by
  obtain ⟨d, hread, hstops⟩ := strayBytes_stopsHalfway
  have hacquire : acquire strayImporter.options strayImporter.session.program strayImporter.host =
      (([], .ok strayBytes), strayImporter.host) :=
    acquire_of_file (by decide) strayHost_read
  have hends : Runs (importInputWithin (strayImporter.host.room.inside 1)) strayImporter
      (fun _ _ => False) fun _ j => j.session.program.registry.entries ≠ [] :=
    (runs_importInputWithin_of_document rfl hacquire hread).2 (runs_of_stopsHalfway hstops)
  rw [Runs] at hends
  rw [run]
  rcases hrun : importInputWithin (strayImporter.host.room.inside 1) strayImporter with
    ⟨e | success, j⟩
  · rw [hrun] at hends
    exact ⟨rfl, hends⟩
  · rw [hrun] at hends
    exact hends.elim

end StabsImport.Import

import StabsImport.Proofs.Finality
import StabsImport.Proofs.Footprints

/-!
# Gates of annotations

Line comments and the marks of inlined sections are written if they are wanted, and nothing else
depends on whether they are: nothing reads a comment. Main statement: `act_gates`.
-/

namespace StabsImport

/-! ## Entries by key -/

namespace Ledger

variable {κ ν : Type} [Key κ]

/-- The entries whose keys are kept. -/
def only (keep : κ → Bool) (l : Ledger κ ν) : Ledger κ ν := ⟨l.entries.filter (keep ·.1)⟩

/-- The entries whose keys are kept are the same, and in the same order. -/
def SameOn (keep : κ → Bool) (l l' : Ledger κ ν) : Prop := l'.only keep = l.only keep

/-- What is put under a key that is kept, is put among what is kept. -/
theorem only_put {keep : κ → Bool} (same : ∀ {a b}, Key.same a b = true → keep a = keep b)
    (l : Ledger κ ν) (k : κ) (v : ν) :
    (l.put k v).only keep = if keep k then (l.only keep).put k v else l.only keep := by
  obtain ⟨es⟩ := l
  simp only [only, put]
  induction es with
  | nil => cases hk : keep k <;> simp [replace, hk]
  | cons e es ih =>
      by_cases he : Key.same e.1 k = true
      · have hkeep := same he
        cases hk : keep k with
        | true => simp [replace, he, hkeep, hk]
        | false => simp [replace, he, hkeep, hk]
      · have rest := ih
        cases hk : keep k <;> cases hkeep : keep e.1 <;> simp_all [replace]

end Ledger

open Document (FunctionDefinition SourceFile)

/-- The comments of a program, by address and kind. -/
abbrev Comments := Ledger (Int × CommentKind) String

namespace Import

/-! ## What is written -/

/-- Comments of one kind, put one after the other. -/
def putComments (kind : CommentKind) (written : List (Int × String)) (c : Comments) : Comments :=
  written.foldl (fun c e => c.put (e.1, kind) e.2) c

/-- The line comments of a definition. -/
def lineComments (d : FunctionDefinition) : List (Int × String) :=
  d.lineNumbers.map fun l => (l.address, s!"Line {l.line}")

/-- The comments at the boundaries of a definition's inlined sections. -/
def inlinedComments (d : FunctionDefinition) (file : SourceFile) : List (Int × String) :=
  (inlineBoundaries (primaryPath d.relativePath file.relativePath) d.breadcrumbs).map
    fun b => (b.address, b.comment)

theorem forM_setComment {β : Type} (kind : CommentKind) (address : β → Int) (text : β → String)
    (l : List β) (p : Program) :
    (l.forM fun b => Program.setComment (address b) kind (some (text b)) : Edit PUnit) p =
      (.ok (), { p with
        comments := putComments kind (l.map fun b => (address b, text b)) p.comments }) := by
  induction l generalizing p with
  | nil => rfl
  | cons b rest ih => exact ih _

/-- The line comments are written if they are wanted. -/
theorem annotateLines_apply (d : FunctionDefinition) (s : Session) :
    annotateLines d s = (.ok (), { s with
      program.comments :=
        putComments .eol (if s.outputLines then lineComments d else []) s.program.comments
      stats.lineComments :=
        s.stats.lineComments + if s.outputLines then d.lineNumbers.length else 0 }) := by
  show (if s.outputLines = true then setLineComments d else pure () : ImportM Unit) s = _
  by_cases wanted : s.outputLines = true
  · have written := forM_setComment .eol (·.address) (fun l => s!"Line {l.line}") d.lineNumbers
      s.program
    simp only [if_pos wanted]
    refine Runs.eq_ok ?_
    rw [setLineComments, Runs.bind_iff, runs_edit]
    exact Runs.of_eq written ⟨rfl, rfl⟩
  · simp only [if_neg wanted]
    rfl

theorem markInlined_apply (d : FunctionDefinition) (file : SourceFile) (s : Session) :
    markInlined d file s = (.ok (), { s with
      program.comments := putComments .pre (inlinedComments d file) s.program.comments
      stats.inlineBoundaries :=
        s.stats.inlineBoundaries + (inlinedComments d file).length }) := by
  have written := forM_setComment .pre (·.address) (·.comment)
    (inlineBoundaries (primaryPath d.relativePath file.relativePath) d.breadcrumbs) s.program
  refine Runs.eq_ok ?_
  rw [markInlined, Runs.bind_iff, runs_edit]
  refine Runs.of_eq written ⟨rfl, ?_⟩
  rw [inlinedComments, List.length_map]

theorem annotateInlined_apply (d : FunctionDefinition) (file : SourceFile) (s : Session) :
    annotateInlined d file s = (.ok (), { s with
      program.comments :=
        putComments .pre (if s.markInlined then inlinedComments d file else [])
          s.program.comments
      stats.inlineBoundaries := s.stats.inlineBoundaries +
        if s.markInlined then (inlinedComments d file).length else 0 }) := by
  show (if s.markInlined = true then markInlined d file else pure () : ImportM Unit) s = _
  by_cases wanted : s.markInlined = true
  · simp only [if_pos wanted]
    exact markInlined_apply d file s
  · simp only [if_neg wanted]
    rfl

/-! ## Sessions that differ in comments -/

/-- Which comments are wanted. -/
structure Gates where
  lines : Bool
  inlined : Bool

/-- The sessions differ in their gates, in the comments and in how many were written, and the
comments are so related. -/
structure Session.Veils (d : Document) (g g' : Gates) (C : Comments → Comments → Prop)
    (s s' : Session) : Prop where
  rest : s' = { s with
    program := { s.program with comments := s'.program.comments }
    outputLines := g'.lines
    markInlined := g'.inlined
    stats := { s.stats with
      lineComments := s'.stats.lineComments, inlineBoundaries := s'.stats.inlineBoundaries } }
  document : s.document = d
  lines : s.outputLines = g.lines
  inlined : s.markInlined = g.inlined
  comments : C s.program.comments s'.program.comments

/-- Comments stay so related when those of a definition are written. -/
structure Bears (g g' : Gates) (C : Comments → Comments → Prop)
    (x : FunctionDefinition × SourceFile) : Prop where
  lines {c c' : Comments} (h : C c c') :
    C (putComments .eol (if g.lines then lineComments x.1 else []) c)
      (putComments .eol (if g'.lines then lineComments x.1 else []) c')
  inlined {c c' : Comments} (h : C c c') :
    C (putComments .pre (if g.inlined then inlinedComments x.1 x.2 else []) c)
      (putComments .pre (if g'.inlined then inlinedComments x.1 x.2 else []) c')

variable {d : Document} {g g' : Gates} {C : Comments → Comments → Prop} {s s' : Session}

namespace Session.Veils

theorem program (h : s.Veils d g g' C s') :
    s'.program = { s.program with comments := s'.program.comments } := by
  rw [h.rest]

theorem reads (h : s.Veils d g g' C s') : s.Reads s' where
  types := by rw [h.rest]
  numbers := by rw [h.rest]
  program := h.program
  knowsPointerSize := by rw [h.rest]
  table := by rw [h.rest]
  isPrepared := by rw [h.rest]
  cache := by rw [h.rest]
  room := by rw [h.rest]

end Session.Veils

instance : Lockstep (Session.Veils d g g' C) where
  reads := Session.Veils.reads
  edits {α s s'} h {e} he := by
    have left := he.comments s.program
    have left' := he.comments s'.program
    have same : (e s'.program).2 =
        { (e s.program).2 with comments := s'.program.comments } := by
      rw [h.program, he]
    refine ⟨?_, h.document, h.lines, h.inlined, ?_⟩
    · rw [same]
      rw [h.rest]
    · rw [left, left']
      exact h.comments
  caches h _ := ⟨by rw [h.rest], h.document, h.lines, h.inlined, h.comments⟩
  tables h _ := ⟨by rw [h.rest], h.document, h.lines, h.inlined, h.comments⟩
  prepares h := ⟨by rw [h.rest], h.document, h.lines, h.inlined, h.comments⟩
  rooms h _ := ⟨by rw [h.rest], h.document, h.lines, h.inlined, h.comments⟩
  reports h _ := ⟨by rw [h.rest], h.document, h.lines, h.inlined, h.comments⟩
  counts {s s'} h f hf := by
    refine ⟨?_, h.document, h.lines, h.inlined, h.comments⟩
    have same : f s'.stats = { f s.stats with
        lineComments := (f s'.stats).lineComments
        inlineBoundaries := (f s'.stats).inlineBoundaries } := by
      rw [h.rest, hf]
    rw [same]
    rw [h.rest]

theorem Bears.annotates {x : FunctionDefinition × SourceFile} (hx : Bears g g' C x) :
    Annotates (Session.Veils d g g' C) x where
  lines s s' h := by
    rw [annotateLines_apply, annotateLines_apply]
    refine ⟨rfl, ?_, h.document, h.lines, h.inlined, ?_⟩
    · rw [h.rest]
    · have comments := hx.lines h.comments
      rw [← h.lines, show g'.lines = s'.outputLines by rw [h.rest]] at comments
      exact comments
  inlined s s' h := by
    rw [annotateInlined_apply, annotateInlined_apply]
    refine ⟨rfl, ?_, h.document, h.lines, h.inlined, ?_⟩
    · rw [h.rest]
    · have comments := hx.inlined h.comments
      rw [← h.inlined, show g'.inlined = s'.markInlined by rw [h.rest]] at comments
      exact comments

/-! ## The stages -/

theorem isCancelled_veils : Tracks (Session.Veils d g g' C) isCancelled := fun s s' h => by
  have same : s'.monitor = s.monitor := by rw [h.rest]
  show KeepStep _ (.ok s.monitor.check.1, { s with monitor := s.monitor.check.2 })
    (.ok s'.monitor.check.1, { s' with monitor := s'.monitor.check.2 })
  rw [same]
  exact ⟨rfl, by rw [h.rest], h.document, h.lines, h.inlined, h.comments⟩

theorem importFunctions_veils (bears : ∀ x ∈ definitions d, Bears g g' C x) :
    Tracks (Session.Veils d g g' C) importFunctions := by
  refine prepare_tracks.bind fun _ => .getting (fun h => by rw [h.rest]) fun h => ?_
  rw [h.document]
  exact importFunctionsFrom_tracks isCancelled_veils fun x hx => (bears x hx).annotates

theorem importGlobals_veils : Tracks (Session.Veils d g g' C) importGlobals :=
  prepare_tracks.bind fun _ => .getting (fun h => by rw [h.rest]) fun _ =>
    importGlobalsFrom_tracks isCancelled_veils _

/-! ## Runs -/

/-- The gates of an importer's options. -/
def gatesOf (i : Importer) : Gates := ⟨i.options.outputLines, i.options.markInlined⟩

/-- The importer with other gates. -/
def gated (g : Gates) (i : Importer) : Importer :=
  { i with options := { i.options with outputLines := g.lines, markInlined := g.inlined } }

/-- The importers differ in their gates and in their sessions, and these are so related. -/
structure Besides (R : Session → Session → Prop) (g' : Gates) (i i' : Importer) : Prop where
  rest : i' = { gated g' i with session := i'.session }
  session : R i.session i'.session

/-- Two ends of a run with the same result, with importers that are so related. -/
def KeepRun {α : Type} (R : Session → Session → Prop) (g' : Gates)
    (x x' : Except RunFault α × Importer) : Prop :=
  x'.1 = x.1 ∧ Besides R g' x.2 x'.2

/-- Run from importers that are so related, the action keeps them so and ends in the same way. -/
def TracksRun {α : Type} (R : Session → Session → Prop) (g' : Gates) (m : RunM α) : Prop :=
  ∀ i i', Besides R g' i i' → KeepRun R g' (m i) (m i')

variable {α β : Type} {R : Session → Session → Prop} {i i' : Importer}

theorem KeepRun.bind {m : RunM α} {f : α → RunM β} (hm : KeepRun R g' (m i) (m i'))
    (hf : ∀ a, TracksRun R g' (f a)) : KeepRun R g' ((m >>= f) i) ((m >>= f) i') := by
  obtain ⟨result, kept⟩ := hm
  rw [Runs.bind_apply, Runs.bind_apply]
  rcases hi : m i with ⟨r, j⟩
  rcases hi' : m i' with ⟨r', j'⟩
  rw [hi, hi'] at result kept
  obtain rfl : r' = r := result
  cases r' with
  | ok a => exact hf a _ _ kept
  | error e => exact ⟨rfl, kept⟩

namespace TracksRun

theorem pure (a : α) : TracksRun R g' (pure a : RunM α) := fun _ _ h => ⟨rfl, h⟩

theorem throw (e : RunFault) : TracksRun R g' (throw e : RunM α) := fun _ _ h => ⟨rfl, h⟩

theorem bind {m : RunM α} {f : α → RunM β} (hm : TracksRun R g' m)
    (hf : ∀ a, TracksRun R g' (f a)) : TracksRun R g' (m >>= f) :=
  fun i i' h => (hm i i' h).bind hf

theorem enterPhase (target : Phase) : TracksRun R g' (enterPhase target) := by
  intro i i' h
  have same : i'.phase = i.phase := by rw [h.rest]; rfl
  show KeepRun R g'
    ((if i.phase.next.contains target = true then _ else _ : RunM Unit) i)
    ((if i'.phase.next.contains target = true then _ else _ : RunM Unit) i')
  rw [same]
  split
  · refine ⟨rfl, ?_, h.session⟩
    show { i' with phase := target } = _
    rw [h.rest]
    rfl
  · exact ⟨rfl, h⟩

theorem within {action : ImportM α} (h : Tracks R action) : TracksRun R g' (within action) := by
  intro i i' hi
  obtain ⟨result, kept⟩ := h _ _ hi.session
  refine ⟨congrArg Except.ok result, ?_, kept⟩
  show { i' with session := (action i'.session).2 } = _
  rw [hi.rest]
  rfl

variable [Lockstep R]

theorem notify (notice : Notice) : TracksRun R g' (notify notice) := by
  intro i i' h
  refine ⟨rfl, ?_, Lockstep.reports h.session notice⟩
  show { i' with session := _ } = _
  rw [h.rest]
  rfl

theorem runStage (isWanted : Bool) {stage : ImportM Unit} (h : Tracks R stage) :
    TracksRun R g' (runStage isWanted stage) := by
  unfold Import.runStage
  split
  · refine (within h).bind fun result => ?_
    split
    · exact pure _
    · split
      · exact notify _
      · exact throw _
  · exact pure _

theorem runPhase (target : Phase) (isWanted : Bool) {stage : ImportM Unit} (h : Tracks R stage) :
    TracksRun R g' (runPhase target isWanted stage) :=
  (enterPhase target).bind fun _ => runStage isWanted h

end TracksRun

/-- The stages of an importer that has taken up its document. -/
def laterStages (o : Options) : RunM Unit := do
  runPhase .importingTypes o.importTypes importTypes
  runPhase .importingFunctions o.importFunctions importFunctions
  runPhase .importingGlobals o.importGlobals importGlobals
  enterPhase .done

theorem laterStages_veils (bears : ∀ x ∈ definitions d, Bears g g' C x) (o : Options) :
    TracksRun (Session.Veils d g g' C) g' (laterStages o) :=
  (TracksRun.runPhase _ _ (importTypes_tracks isCancelled_veils)).bind fun _ =>
    (TracksRun.runPhase _ _ (importFunctions_veils bears)).bind fun _ =>
      (TracksRun.runPhase _ _ importGlobals_veils).bind fun _ => .enterPhase _

/-- Importers that differ in their gates take up a document and go on in step. -/
theorem takeUp_veils (room : Room)
    (same : C i.session.program.comments i.session.program.comments) :
    KeepRun (Session.Veils d (gatesOf i) g' C) g' (takeUp room d i)
      (takeUp room d (gated g' i)) := by
  let R := Session.Veils d (gatesOf i) g' C
  have taken : Besides R g'
      { i with session := sessionOf room d i.options i.session, isStarted := true }
      { gated g' i with
        session := sessionOf room d (gated g' i).options i.session, isStarted := true } :=
    ⟨rfl, rfl, rfl, rfl, rfl, same⟩
  have prepared : TracksRun R g' (within prepare) := .within prepare_tracks
  rw [takeUp, Runs.bind_apply, Runs.bind_apply]
  refine (prepared.bind fun result => ?_) _ _ taken
  split
  · exact .pure _
  · exact .throw _

theorem runStages_veils (bears : ∀ x ∈ definitions d, Bears (gatesOf i) g' C x) (room : Room)
    (same : C i.session.program.comments i.session.program.comments) :
    KeepRun (Session.Veils d (gatesOf i) g' C) g' (runStages room d i)
      (runStages room d (gated g' i)) := by
  have stages : TracksRun (Session.Veils d (gatesOf i) g' C) g' (do
      laterStages (← get).options) := fun j j' h => by
    have options : laterStages j'.options = laterStages j.options := by
      rw [h.rest]
      rfl
    show KeepRun _ g' (laterStages j.options j) (laterStages j'.options j')
    rw [options]
    exact laterStages_veils bears _ j j' h
  exact (takeUp_veils (room.inside 3) same).bind fun _ => stages

/-- The import of a document goes through its stages, from an importer that is idle or is not. -/
theorem importWithin_apply (room : Room) (d : Document) (i : Importer) :
    importWithin room d i = runStages room d
      { i with phase := if i.phase = .idle then .parsing else i.phase } := by
  rw [importWithin_eq]
  show ((if i.phase = .idle then _ else _ : RunM Unit) i) = _
  split
  · next idle =>
      obtain ⟨options, host, phase, session, isStarted⟩ := i
      obtain rfl : phase = .idle := idle
      rfl
  · rfl

/-! ## Getting the document -/

/-- Gets a document and reads it, unless that is given up. -/
def readInput (room : Room) : RunM (Option Document) := do
  enterPhase .preparingInput
  match ← acquireText with
  | .error e =>
      if e.isReported then
        let _ ← abort e.report
        return none
      else throw (.notGot e)
  | .ok bytes =>
      enterPhase .parsing
      let (warnings, result) := Document.readBytes (room.inside 1) bytes
      warnings.forM fun text => notify (.warning text)
      match result with
      | .error e =>
          if e.isFormat then
            let _ ← abort e.report
            return none
          else throw (.unreadable e)
      | .ok document => return some document

theorem importInputWithin_eq (room : Room) :
    importInputWithin room = (do
      match ← readInput room with
      | none => return false
      | some document =>
          importWithin (room.inside 1) document
          return true) := by
  have gaveUp (report : String) : abort report = (do
      let _ ← abort report
      return false) := by
    simp only [abort, bind_assoc, pure_bind]
  unfold importInputWithin readInput
  simp only [bind_assoc]
  refine bind_congr fun _ => bind_congr fun acquired => ?_
  cases acquired with
  | error e =>
      dsimp only
      split
      · simp only [bind_assoc, pure_bind]
        exact gaveUp e.report
      · rfl
  | ok bytes =>
      simp only [bind_assoc]
      refine bind_congr fun _ => bind_congr fun _ => ?_
      cases (Document.readBytes (room.inside 1) bytes).2 with
      | error e =>
          dsimp only
          split
          · simp only [bind_assoc, pure_bind]
            exact gaveUp e.report
          · rfl
      | ok document => rfl

/-- Nothing that is done goes by the gates. -/
def Passes (m : RunM α) : Prop := ∀ g i, m (gated g i) = ((m i).1, gated g (m i).2)

namespace Passes

theorem pure (a : α) : Passes (pure a : RunM α) := fun _ _ => rfl

theorem throw (e : RunFault) : Passes (throw e : RunM α) := fun _ _ => rfl

theorem bind {m : RunM α} {f : α → RunM β} (hm : Passes m) (hf : ∀ a, Passes (f a)) :
    Passes (m >>= f) := by
  intro g i
  rw [Runs.bind_apply, Runs.bind_apply, hm]
  rcases m i with ⟨e | a, j⟩
  · rfl
  · exact hf a g j

theorem enterPhase (target : Phase) : Passes (enterPhase target) := by
  intro g i
  show (if i.phase.next.contains target = true then _ else _ : RunM Unit) (gated g i) =
    (((if i.phase.next.contains target = true then _ else _ : RunM Unit) i).1,
      gated g ((if i.phase.next.contains target = true then _ else _ : RunM Unit) i).2)
  split <;> rfl

theorem notify (notice : Notice) : Passes (notify notice) := fun _ _ => rfl

theorem forM {f : β → RunM PUnit} (hf : ∀ b, Passes (f b)) (l : List β) : Passes (l.forM f) := by
  induction l with
  | nil => exact pure _
  | cons b rest ih => exact (hf b).bind fun _ => ih

theorem abort (report : String) : Passes (abort report) :=
  (notify _).bind fun _ => (enterPhase .aborted).bind fun _ => pure _

theorem acquireText : Passes acquireText := by
  intro g i
  have same : acquire (gated g i).options (gated g i).session.program (gated g i).host =
      acquire i.options i.session.program i.host := rfl
  have reports (lines : List String) (result : Except InputFault Text.Bytes) :
      Passes (do
        lines.forM fun line => Import.notify (.diagnostic toolName line)
        return result) :=
    (forM (fun _ => notify _) lines).bind fun _ => pure result
  have apply (j : Importer) : Import.acquireText j = (do
      (acquire j.options j.session.program j.host).1.1.forM fun line =>
        Import.notify (.diagnostic toolName line)
      return (acquire j.options j.session.program j.host).1.2 : RunM _)
        { j with host := (acquire j.options j.session.program j.host).2 } := rfl
  rw [apply, apply, same]
  exact reports _ _ g { i with host := (acquire i.options i.session.program i.host).2 }

end Passes

theorem readInput_passes (room : Room) : Passes (readInput room) := by
  refine (Passes.enterPhase _).bind fun _ => Passes.acquireText.bind fun acquired => ?_
  split
  · split
    · exact (Passes.abort _).bind fun _ => .pure _
    · exact .throw _
  · refine (Passes.enterPhase _).bind fun _ => ?_
    refine (Passes.forM (fun _ => .notify _) _).bind fun _ => ?_
    split
    · split
      · exact (Passes.abort _).bind fun _ => .pure _
      · exact .throw _
    · exact .pure _

/-- What getting the document leaves as it was, and which document it comes to. -/
structure Gets (room : Room) (i : Importer) (found : Option Document) (j : Importer) : Prop where
  options : j.options = i.options
  program : j.session.program = i.session.program
  found : ∀ d ∈ found, inputDocument? room i = some d

theorem readInput_gets (room : Room) (i : Importer) :
    Runs (readInput room) i (fun found j => Gets room i found j)
      fun _ j => Gets room i none j := by
  have unfound (d : Document) (h : d ∈ none) : inputDocument? room i = some d :=
    absurd h (Option.not_mem_none d)
  rw [readInput, Runs.bind_iff]
  by_cases next : Phase.preparingInput ∈ i.phase.next
  · rw [runs_enterPhase next, Runs.bind_iff]
    refine Runs.mono (acquireText_journal _) ?_ fun _ _ h => h.elim
    rintro r _ ⟨hr, journal, rfl⟩
    have hr : r = (acquire i.options i.session.program i.host).1.2 := hr
    cases r with
    | error e =>
        dsimp only
        split
        · rw [Runs.bind_iff]
          refine Runs.mono (abort_journal (by simp [Phase.next]) _) ?_ fun _ _ h => h.elim
          rintro _ _ ⟨-, journal, rfl⟩
          exact ⟨rfl, rfl, unfound⟩
        · exact ⟨rfl, rfl, unfound⟩
    | ok bytes =>
        have found : inputDocument? room i =
            (Document.readBytes (room.inside 1) bytes).2.toOption := by
          rw [inputDocument?, ← hr]
        dsimp only
        rw [Runs.bind_iff, runs_enterPhase (by simp [Phase.next]), Runs.bind_iff]
        refine Runs.mono (notifyAll_journal _ _) ?_ fun _ _ h => h.elim
        rintro _ _ ⟨journal, rfl⟩
        cases hread : (Document.readBytes (room.inside 1) bytes).2 with
        | error e =>
            dsimp only
            split
            · rw [Runs.bind_iff]
              refine Runs.mono (abort_journal (by simp [Phase.next]) _) ?_ fun _ _ h => h.elim
              rintro _ _ ⟨-, journal, rfl⟩
              exact ⟨rfl, rfl, unfound⟩
            · exact ⟨rfl, rfl, unfound⟩
        | ok d =>
            refine ⟨rfl, rfl, fun d' hd' => ?_⟩
            obtain rfl : d = d' := Option.some.inj hd'
            rw [found, hread]
            rfl
  · rw [runs_enterPhase_refused next]
    exact ⟨rfl, rfl, unfound⟩

/-! ## Requests -/

/-- The document a request comes to, if there is one. -/
def Request.found? (i : Importer) : Request → Option Document
  | .input => inputDocument? i.host.room i
  | .document d => some d

theorem Request.act_input (i : Importer) :
    Request.act .input i = (do
      match ← readInput i.host.room with
      | none => return
      | some d => importWithin (i.host.room.inside 1) d : RunM Unit) i := by
  have unit (room : Room) : (do let _ ← importInputWithin room : RunM Unit) = (do
      match ← readInput room with
      | none => return
      | some d => importWithin (room.inside 1) d) := by
    rw [importInputWithin_eq, bind_assoc]
    refine bind_congr fun found => ?_
    cases found with
    | none => rfl
    | some d => simp only [bind_assoc, pure_bind, bind_pure_unit]
  have here : Request.act .input i =
      (do let _ ← importInputWithin i.host.room : RunM Unit) i := by
    rw [Request.act, importInput, bind_assoc, Runs.bind_apply]
    rfl
  rw [here, unit]

/-- The two ends of a run are the same but for the gates, how many comments were written, and the
comments, which are so related. -/
structure SameBut (C : Comments → Comments → Prop) (x x' : Except RunFault Unit × Importer) :
    Prop where
  result : x'.1 = x.1
  rest : x'.2 = { x.2 with
    options := { x.2.options with
      outputLines := x'.2.options.outputLines, markInlined := x'.2.options.markInlined }
    session := { x.2.session with
      program := { x.2.session.program with comments := x'.2.session.program.comments }
      outputLines := x'.2.session.outputLines
      markInlined := x'.2.session.markInlined
      stats := { x.2.session.stats with
        lineComments := x'.2.session.stats.lineComments
        inlineBoundaries := x'.2.session.stats.inlineBoundaries } } }
  comments : C x.2.session.program.comments x'.2.session.program.comments

theorem SameBut.gated {r : Except RunFault Unit}
    (same : C i.session.program.comments i.session.program.comments) :
    SameBut C (r, i) (r, gated g' i) :=
  ⟨rfl, rfl, same⟩

theorem SameBut.of_keepRun {x x' : Except RunFault Unit × Importer}
    (h : KeepRun (Session.Veils d g g' C) g' x x') : SameBut C x x' := by
  obtain ⟨result, rest, session⟩ := h
  refine ⟨result, ?_, session.comments⟩
  rw [rest]
  rw [session.rest]
  rfl

theorem importWithin_sameBut (bears : ∀ x ∈ definitions d, Bears (gatesOf i) g' C x) (room : Room)
    (same : C i.session.program.comments i.session.program.comments) :
    SameBut C (importWithin room d i) (importWithin room d (gated g' i)) := by
  let j : Importer := { i with phase := if i.phase = .idle then .parsing else i.phase }
  have stages := runStages_veils (i := j) bears room same
  rw [importWithin_apply, importWithin_apply]
  exact .of_keepRun stages

/-- Where comments stay so related as the definitions of the document are written, they are so
related in the end. -/
theorem act_sameBut {request : Request}
    (bears : ∀ d ∈ request.found? i, ∀ x ∈ definitions d, Bears (gatesOf i) g' C x)
    (same : C i.session.program.comments i.session.program.comments) :
    SameBut C (request.act i) (request.act (gated g' i)) := by
  cases request with
  | document d => exact importWithin_sameBut (bears d rfl) i.host.room same
  | input =>
      have gets := readInput_gets i.host.room i
      rw [Request.act_input, Request.act_input, Runs.bind_apply, Runs.bind_apply]
      have passes : readInput (Import.gated g' i).host.room (Import.gated g' i) = _ :=
        readInput_passes i.host.room g' i
      rw [passes]
      rw [Runs] at gets
      rcases hr : readInput i.host.room i with ⟨e | found, j⟩ <;> rw [hr] at gets
      · exact .gated (gets.program ▸ same)
      · cases found with
        | none => exact .gated (gets.program ▸ same)
        | some d =>
            have gates : gatesOf j = gatesOf i := by rw [gatesOf, gets.options, gatesOf]
            refine importWithin_sameBut (fun x hx => ?_) (i.host.room.inside 1)
              (gets.program ▸ same)
            rw [gates]
            exact bears d (gets.found d rfl) x hx

/-! ## Where comments stand -/

/-- Whether a definition of the document has the line of a code address, for a comment at the end of
that line. -/
def isLine (d : Document) (key : Int × CommentKind) : Bool :=
  key.2 = .eol && (definitions d).any fun x => x.1.lineNumbers.any (·.address = key.1)

/-- Whether a definition of the document has a breadcrumb at an address, for a comment before it. -/
def isCrumb (d : Document) (key : Int × CommentKind) : Bool :=
  key.2 = .pre && (definitions d).any fun x => x.1.breadcrumbs.any (·.address = key.1)

section

variable {keep : Int × CommentKind → Bool} {kind : CommentKind} {written : List (Int × String)}
  {c c' : Comments} {x : FunctionDefinition × SourceFile} {document : Option Document}

theorem only_put_comment (c : Comments) (key : Int × CommentKind) (text : String) :
    (c.put key text).only keep = if keep key then (c.only keep).put key text else c.only keep :=
  Ledger.only_put (fun {a b} h => by
    obtain rfl : a = b := of_decide_eq_true h
    rfl) c key text

theorem sameOn_putComments (h : c.SameOn keep c') :
    (putComments kind written c).SameOn keep (putComments kind written c') := by
  induction written generalizing c c' with
  | nil => exact h
  | cons e rest ih =>
      refine ih ?_
      rw [Ledger.SameOn, only_put_comment, only_put_comment, h]

theorem only_putComments (dropped : ∀ e ∈ written, keep (e.1, kind) = false) :
    (putComments kind written c).only keep = c.only keep := by
  induction written generalizing c with
  | nil => rfl
  | cons e rest ih =>
      have here : (c.put (e.1, kind) e.2).only keep = c.only keep := by
        rw [only_put_comment, dropped e List.mem_cons_self, if_neg Bool.false_ne_true]
      exact (ih fun e' he' => dropped e' (List.mem_cons_of_mem _ he')).trans here

/-- What is wanted of some comments is not kept, if none of them is. -/
theorem only_putComments_wanted (wanted : Bool)
    (dropped : ∀ e ∈ written, keep (e.1, kind) = false) :
    (putComments kind (if wanted then written else []) c).only keep = c.only keep := by
  cases wanted with
  | true => exact only_putComments dropped
  | false => rfl

theorem isLine_of_mem (hx : x ∈ definitions d) {e : Int × String} (he : e ∈ lineComments x.1) :
    isLine d (e.1, .eol) = true := by
  obtain ⟨l, hl, rfl⟩ := List.mem_map.mp he
  have here : x.1.lineNumbers.any (·.address = l.address) = true :=
    List.any_eq_true.mpr ⟨l, hl, decide_eq_true rfl⟩
  exact List.any_eq_true.mpr ⟨x, hx, here⟩

theorem isCrumb_of_mem (hx : x ∈ definitions d) {e : Int × String}
    (he : e ∈ inlinedComments x.1 x.2) : isCrumb d (e.1, .pre) = true := by
  obtain ⟨b, hb, rfl⟩ := List.mem_map.mp he
  obtain ⟨crumb, hcrumb, haddress⟩ := address_of_mem_boundaries hb
  have here : x.1.breadcrumbs.any (·.address = b.address) = true :=
    List.any_eq_true.mpr ⟨crumb, hcrumb, decide_eq_true haddress⟩
  exact List.any_eq_true.mpr ⟨x, hx, here⟩

/-- Line comments may be wanted or not where no line is kept. -/
theorem bears_lines (dropped : ∀ e ∈ lineComments x.1, keep (e.1, .eol) = false)
    (inlined : g'.inlined = g.inlined) : Bears g g' (Ledger.SameOn keep) x where
  lines h := by
    rw [Ledger.SameOn, only_putComments_wanted _ dropped, only_putComments_wanted _ dropped, h]
  inlined h := by
    rw [inlined]
    exact sameOn_putComments h

theorem bears_inlined (dropped : ∀ e ∈ inlinedComments x.1 x.2, keep (e.1, .pre) = false)
    (lines : g'.lines = g.lines) : Bears g g' (Ledger.SameOn keep) x where
  lines h := by
    rw [lines]
    exact sameOn_putComments h
  inlined h := by
    rw [Ledger.SameOn, only_putComments_wanted _ dropped, only_putComments_wanted _ dropped, h]

/-- What is kept of the comments stays as it was if none of it is wanted. -/
theorem bears_kept (before : Comments)
    (lines : g.lines = true → ∀ e ∈ lineComments x.1, keep (e.1, .eol) = false)
    (inlined : g.inlined = true → ∀ e ∈ inlinedComments x.1 x.2, keep (e.1, .pre) = false) :
    Bears g g (fun c _ => before.SameOn keep c) x where
  lines {c _} h := by
    refine Eq.trans ?_ h
    split
    · next wanted => exact only_putComments (lines wanted)
    · rfl
  inlined {c _} h := by
    refine Eq.trans ?_ h
    split
    · next wanted => exact only_putComments (inlined wanted)
    · rfl

end

/-- The gates of annotations control these and nothing else. -/
structure GatesOnly (request : Request) (i : Importer) : Prop where
  /-- Line comments may be wanted or not: comments differ at lines only. -/
  lines (b : Bool) :
    SameBut (Ledger.SameOn fun key => !(request.found? i).any (isLine · key))
      (request.act i) (request.act { i with options.outputLines := b })
  /-- Marks of inlined sections may be wanted or not: comments differ at breadcrumbs only. -/
  inlined (b : Bool) :
    SameBut (Ledger.SameOn fun key => !(request.found? i).any (isCrumb · key))
      (request.act i) (request.act { i with options.markInlined := b })
  /-- Without line comments, the comments at ends of lines are those from before. -/
  noLines : i.session.program.comments.SameOn (·.2 = .eol)
    (request.act { i with options.outputLines := false }).2.session.program.comments
  /-- Without marks of inlined sections, the comments before lines are those from before. -/
  noInlined : i.session.program.comments.SameOn (·.2 = .pre)
    (request.act { i with options.markInlined := false }).2.session.program.comments

theorem act_gates (request : Request) (i : Importer) : GatesOnly request i := by
  have dropped {p : Document → Int × CommentKind → Bool} {d : Document}
      (hd : d ∈ request.found? i) {key : Int × CommentKind} (h : p d key = true) :
      (!(request.found? i).any (p · key)) = false := by
    rw [Option.mem_def.mp hd, Option.any_some, h]
    rfl
  constructor
  · intro b
    show SameBut _ _ (request.act (gated ⟨b, i.options.markInlined⟩ i))
    refine act_sameBut (fun d hd x hx => ?_) rfl
    exact bears_lines (fun e he => dropped hd (isLine_of_mem hx he)) rfl
  · intro b
    show SameBut _ _ (request.act (gated ⟨i.options.outputLines, b⟩ i))
    refine act_sameBut (fun d hd x hx => ?_) rfl
    exact bears_inlined (fun e he => dropped hd (isCrumb_of_mem hx he)) rfl
  -- a run is compared with itself where only what it leaves of one kind is asked for
  · let j : Importer := { i with options.outputLines := false }
    have kept : SameBut (fun c _ => i.session.program.comments.SameOn (·.2 = .eol) c)
        (request.act j) (request.act (gated (gatesOf j) j)) :=
      act_sameBut (fun d _ x _ => bears_kept _ nofun fun _ _ _ => rfl) rfl
    exact kept.comments
  · let j : Importer := { i with options.markInlined := false }
    have kept : SameBut (fun c _ => i.session.program.comments.SameOn (·.2 = .pre) c)
        (request.act j) (request.act (gated (gatesOf j) j)) :=
      act_sameBut (fun d _ x _ => bears_kept _ (fun _ _ _ => rfl) nofun) rfl
    exact kept.comments

end Import

end StabsImport

import StabsImport.Document.Reader
import StabsImport.Import.Globals
import StabsImport.Import.Input
import StabsImport.Import.Types

/-!
# Import runs

A run goes through its phases in one fixed order. It can be aborted only while the document is got
and read; after that every problem is a diagnostic. An importer runs once: no phase is entered a
second time.
-/

namespace StabsImport

namespace Import

inductive Phase where
  | idle
  | preparingInput
  | parsing
  | importingTypes
  | importingFunctions
  | importingGlobals
  | done
  | aborted
  deriving DecidableEq, Repr, Inhabited

namespace Phase

def text : Phase → String
  | idle => "idle"
  | preparingInput => "preparing_input"
  | parsing => "parsing"
  | importingTypes => "importing_types"
  | importingFunctions => "importing_functions"
  | importingGlobals => "importing_globals"
  | done => "done"
  | aborted => "aborted"

/-- The phases that may follow one. -/
def next : Phase → List Phase
  | idle => [preparingInput]
  | preparingInput => [parsing, aborted]
  | parsing => [importingTypes, aborted]
  | importingTypes => [importingFunctions]
  | importingFunctions => [importingGlobals]
  | importingGlobals => [done]
  | done | aborted => []

end Phase

/-- What ends a run, as opposed to what is reported in the course of it. -/
inductive RunFault where
  | wrongPhase (source target : Phase)
  | notGot (e : InputFault)
  | unreadable (e : Document.Fault)
  | broken (e : Fault)
  deriving DecidableEq

namespace RunFault

def title : RunFault → String
  | wrongPhase .. => "RuntimeError"
  | notGot e => e.title
  | unreadable e => e.title
  | broken e => e.title

def message : RunFault → String
  | wrongPhase source target =>
      s!"invalid import state transition {source.text} -> {target.text}"
  | notGot e => e.message
  | unreadable e => e.message
  | broken e => e.message

def report (e : RunFault) : String :=
  if e.message.isEmpty then e.title else e.title ++ ": " ++ e.message

end RunFault

end Import

structure Importer where
  options : Options := {}
  host : Host := {}
  phase : Import.Phase := .idle
  /-- The program and all else the stages work on. -/
  session : Import.Session
  /-- Whether the session is that of a document, as opposed to none so far. -/
  isStarted : Bool := false
  deriving Inhabited

/-- An importer about to run. -/
def Importer.start (program : Program) (options : Options) (host : Host) (monitor : Monitor) :
    Importer :=
  { options, host, session := { document := {}, program, monitor } }

abbrev RunM := ExceptT Import.RunFault (StateM Importer)

namespace Import

/-- The source of what is reported about the run as a whole. -/
def runSource : String := "stdump_importer"

def onSession (f : Session → Session) : RunM Unit :=
  modify fun i => { i with session := f i.session }

def notify (notice : Notice) : RunM Unit :=
  onSession fun s => { s with journal := s.journal.push notice }

def enterPhase (target : Phase) : RunM Unit := do
  let source := (← get).phase
  if source.next.contains target then modify fun i => { i with phase := target }
  else throw (.wrongPhase source target)

/-- Works on the session; its state is kept whatever the result. -/
def within {α : Type} (action : ImportM α) : RunM (Except Fault α) := do
  let i ← get
  let (result, session) := action i.session
  set { i with session }
  return result

/-- Runs a stage if it is wanted. The faults of single items end the stage and are reported. -/
def runStage (isWanted : Bool) (stage : ImportM Unit) : RunM Unit := do
  if isWanted then
    match ← within stage with
    | .ok _ => pure ()
    | .error e =>
        if e.isRejection || e.isTypeFault then notify (.diagnostic runSource e.report)
        else throw (.broken e)

/-- The session of a document: the program and what is known of it, what was reported, the monitor
and the counts go on. -/
def sessionOf (room : Room) (document : Document) (o : Options) (s : Session) : Session :=
  { document, program := s.program, journal := s.journal, monitor := s.monitor,
    knowsPointerSize := s.knowsPointerSize, markInlined := o.markInlined,
    outputLines := o.outputLines, stats := s.stats, room }

/-- Takes up a document, with a session of its own. -/
def takeUp (room : Room) (document : Document) : RunM Unit := do
  modify fun i =>
    { i with session := sessionOf room document i.options i.session, isStarted := true }
  match ← within prepare with
  | .ok _ => pure ()
  | .error e => throw (.broken e)

/-- Imports a document into the program, stage after stage. -/
def importWithin (room : Room) (document : Document) : RunM Unit := do
  if (← get).phase = .idle then
    enterPhase .preparingInput
    enterPhase .parsing
  takeUp (room.inside 3) document
  let o := (← get).options
  enterPhase .importingTypes
  runStage o.importTypes importTypes
  enterPhase .importingFunctions
  runStage o.importFunctions importFunctions
  enterPhase .importingGlobals
  runStage o.importGlobals importGlobals
  enterPhase .done

def importDocument (document : Document) : RunM Unit := do
  importWithin (← get).host.room document

/-- The text of the document, or why there is none. The lines the tool reported are diagnostics
either way. -/
def acquireText : RunM (Except InputFault Text.Bytes) := do
  let i ← get
  let ((lines, result), host) := acquire i.options i.session.program i.host
  set { i with host }
  lines.forM fun line => notify (.diagnostic toolName line)
  return result

def abort (report : String) : RunM Bool := do
  notify (.diagnostic runSource report)
  enterPhase .aborted
  return false

/-- Gets a document and imports it; false if the document could not be got or read. -/
def importInputWithin (room : Room) : RunM Bool := do
  enterPhase .preparingInput
  match ← acquireText with
  | .error e => if e.isReported then abort e.report else throw (.notGot e)
  | .ok bytes =>
      enterPhase .parsing
      let (warnings, result) := Document.readBytes (room.inside 1) bytes
      warnings.forM fun text => notify (.warning text)
      match result with
      | .error e => if e.isFormat then abort e.report else throw (.unreadable e)
      | .ok document =>
          importWithin (room.inside 1) document
          return true

def importInput : RunM Bool := do importInputWithin (← get).host.room

def unexpected : String := "Unexpected failure during import"

/-- A run that turns every fault into a diagnostic; whether it succeeded, and what it left. -/
def run (i : Importer) : Bool × Importer :=
  match importInputWithin (i.host.room.inside 1) i with
  | (.ok success, i) => (success, i)
  | (.error e, i) =>
      let notices : Journal := #[.warning unexpected, .diagnostic runSource e.report]
      (false, { i with session.journal := i.session.journal ++ notices })

end Import

end StabsImport

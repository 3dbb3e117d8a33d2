import StabsImport.Document.Node
import StabsImport.Program.Data
import StabsImport.Program.Functions
import StabsImport.Room

/-!
# The state of an import

One document going into one program: the types made for the table so far, the caches by which
types are shared, what is reported, and the monitor that may stop the work between two items.
-/

namespace StabsImport

/-- What is reported in the course of an import. Only diagnostics are part of its result. -/
inductive Notice where
  | diagnostic (source message : String)
  | warning (text : String)
  deriving DecidableEq, Repr, Inhabited

namespace Notice

def logText : Notice → String
  | diagnostic source message => source ++ ": " ++ message
  | warning text => text

def diagnostic? : Notice → Option (String × String)
  | diagnostic source message => some (source, message)
  | warning _ => none

end Notice

abbrev Journal := Array Notice

def Journal.diagnostics (j : Journal) : List (String × String) := j.toList.filterMap (·.diagnostic?)

def Journal.logTexts (j : Journal) : List String := j.toList.map (·.logText)

/-- How many more checks find the work not cancelled; no number means that all do. Work that a
check has found cancelled stays so. -/
structure Monitor where
  remaining : Option Nat := none
  isCancelled : Bool := false
  deriving DecidableEq, Repr, Inhabited

namespace Monitor

def cancel (m : Monitor) : Monitor := { m with isCancelled := true }

def cancelAfter (m : Monitor) (checks : Nat) : Monitor := { m with remaining := some checks }

/-- Whether the work is cancelled, and the monitor after the check. -/
def check (m : Monitor) : Bool × Monitor :=
  if m.isCancelled then (true, m)
  else
    match m.remaining with
    | none => (false, m)
    | some 0 => (true, m.cancel)
    | some (n + 1) => (false, { m with remaining := some n })

end Monitor

namespace Import

structure Stats where
  functions : Nat := 0
  parameters : Nat := 0
  locals : Nat := 0
  lineComments : Nat := 0
  inlineBoundaries : Nat := 0
  globals : Nat := 0
  skippedFunctions : Nat := 0
  deriving DecidableEq, Repr, Inhabited

/-- The types to share: built-in ones by class, pointers by target and size, arrays by element and
count, and those described by a node by its serial number. -/
structure TypeCache where
  builtIns : Ledger Document.BuiltInClass TypeId := {}
  pointers : Ledger (TypeId × Int) TypeId := {}
  arrays : Ledger (TypeId × Int) TypeId := {}
  nodes : Ledger Nat TypeId := {}
  deriving Inhabited

structure Session where
  document : Document
  program : Program
  journal : Journal := #[]
  monitor : Monitor := {}
  /-- Whether the program's pointer size is known. What needs it fails where it is not. -/
  knowsPointerSize : Bool := true
  markInlined : Bool := true
  outputLines : Bool := true
  /-- The type of each entry of the document's table, once there is one. -/
  table : Array (Option TypeId) := #[]
  isPrepared : Bool := false
  cache : TypeCache := {}
  stats : Stats := {}
  /-- The room for resolving types inside one another. -/
  room : Room := none
  deriving Inhabited

end Import

abbrev ImportM := ExceptT Fault (StateM Import.Session)

namespace Import

def edit {α : Type} (e : Edit α) : ImportM α := fun s =>
  let (result, program) := e s.program
  (result, { s with program })

/-- Works inside so many calls, if there is room for them. -/
def inside {α : Type} (calls : Nat) (action : ImportM α) : ImportM α := fun s =>
  if s.room.allows calls then
    let (result, s') := action { s with room := s.room.inside calls }
    (result, { s' with room := s.room })
  else (.error .tooDeep, s)

/-- Fails unless there is room for so many calls. -/
def need (calls : Nat) : ImportM Unit := inside calls (pure ())

/-- The calls it takes to report something. -/
def reportingCalls : Nat := 11

def diagnose (source message : String) : ImportM Unit := do
  need reportingCalls
  modify fun s => { s with journal := s.journal.push (.diagnostic source message) }

/-- Handles the faults of building a type; all others go on. -/
def onTypeFault {α : Type} (action : ImportM α) (handle : Fault → ImportM α) : ImportM α :=
  tryCatch action fun e => if e.isTypeFault then handle e else throw e

/-- Handles what the program refuses; all other faults go on. -/
def onRejection {α : Type} (action : ImportM α) (handle : Fault → ImportM α) : ImportM α :=
  tryCatch action fun e => if e.isRejection then handle e else throw e

def isCancelled : ImportM Bool := do
  let (answer, monitor) := (← get).monitor.check
  modify fun s => { s with monitor }
  return answer

def pointerSize : ImportM Int := do
  let s ← get
  if !s.knowsPointerSize then throw .wrongKind
  return s.program.pointerSize

def setEntry (index : Nat) (id : TypeId) : ImportM Unit :=
  modify fun s => { s with table := s.table.setIfInBounds index (some id) }

/-- Makes an empty table for the document, the first time. -/
def prepare : ImportM Unit := do
  let s ← get
  if s.isPrepared then return
  if s.document.types.any fun n => !n.name.isKey then throw .wrongKind
  set { s with table := Array.replicate s.document.types.length none, isPrepared := true }

end Import

end StabsImport

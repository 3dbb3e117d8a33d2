import StabsImport.Host
import StabsImport.Import.Options
import StabsImport.Program.Basic
import StabsImport.Text.Numeral

/-!
# Getting the document

The text of the document is read from a file, or it is what the `stdump` tool writes for an ELF
file: one that is named, or the program's own image, copied to a temporary file that is removed
afterwards.
-/

namespace StabsImport

open Text (Bytes)

inductive InputFault where
  | unreadable (path : String) (cause : PathFault)
  | elfNotFound (path : String)
  | notExportable
  | noImage
  | exportFailed (path : String) (cause : PathFault)
  | noTemporary
  | toolNotFound (path : String)
  | toolNotOnPath (name : String)
  | toolTimedOut (seconds : Int)
  /-- The tool timed out after a time that is too long to be written. -/
  | longTimeout
  | limitTooLong
  /-- The file's path is no argument for a tool. -/
  | noArgument (path : String) (cause : PathFault)
  | toolNotStarted (reason : String)
  | toolFailed (status : Int)
  | toolReported (lines : Nat)
  | noOutput
  deriving DecidableEq, Repr

namespace InputFault

/-- Whether a run answers for the fault; that a text is no path, or a number no text or no time to
wait, escapes it. -/
def isReported : InputFault → Bool
  | unreadable _ cause | exportFailed _ cause => cause.isReported
  | longTimeout | limitTooLong | noArgument .. => false
  | _ => true

def title : InputFault → String
  | unreadable _ cause | exportFailed _ cause =>
      if cause.isReported then "InputAcquisitionError" else cause.title
  | longTimeout => "ValueError"
  | limitTooLong => "OverflowError"
  | noArgument _ cause => cause.title
  | _ => "InputAcquisitionError"

def message : InputFault → String
  | unreadable path cause =>
      if cause.isReported then s!"cannot read {path}: {cause.message path}"
      else cause.message path
  | elfNotFound path => "ELF file not found: " ++ path
  | notExportable => "the program cannot be exported as an ELF file"
  | noImage => "program has no executable image to export"
  | exportFailed path cause =>
      if cause.isReported then s!"failed to export {path}: {cause.message path}"
      else cause.message path
  | noTemporary => "cannot create temporary file"
  | toolNotFound path => "stdump executable not found: " ++ path
  | toolNotOnPath name => "stdump executable not found on PATH: " ++ name
  | toolTimedOut seconds => s!"stdump timed out after {seconds}s"
  | longTimeout => Text.longNumberMessage
  | limitTooLong => ""
  | noArgument path cause => cause.message path
  | toolNotStarted reason => "failed to run stdump: " ++ reason
  | toolFailed status => s!"stdump failed (rc={status})"
  | toolReported lines => s!"stdump reported {lines} error line(s)"
  | noOutput => "stdump produced no output"

def report (e : InputFault) : String := e.title ++ ": " ++ e.message

end InputFault

/-- What the host has for a program: a file that is there. -/
def Program.image? (p : Program) (h : Host) : Option Bytes := p.executable.bind h.content?

def Program.canExport (p : Program) (h : Host) : Bool := (p.image? h).isSome

/-- Copies the program's image to a file. -/
def Program.export (p : Program) (h : Host) (path : String) : Except InputFault Host :=
  match p.image? h with
  | none => .error .noImage
  | some image => (h.write path image).mapError (.exportFailed path)

namespace Import

def toolName : String := "stdump"

/-- The tool's command that prints the document. -/
def toolCommand : String := "print_json"

/-- The environment variables that matter here start like this. -/
def variablePrefix : String := "STDUMP_IMPORT_"

/-- The first of these that is given: the option, the environment variable, the plain name. -/
def toolCandidate (h : Host) (option : String) : String :=
  let setting := (h.environment.get? (variablePrefix ++ "STDUMP_PATH")).getD ""
  Text.trim (if option ≠ "" then option else if setting ≠ "" then setting else toolName)

/-- A path is taken as it is, a name is looked up. -/
def findTool (h : Host) (option : String) : Except InputFault String :=
  let candidate := toolCandidate h option
  if candidate.toList.contains '/' then
    if h.isFile candidate then .ok candidate else .error (.toolNotFound candidate)
  else
    match h.tools.get? candidate with
    | some path => .ok path
    | none => .error (.toolNotOnPath candidate)

/-- The lines of an error stream that have ink. -/
def errorLines (errors : Bytes) : List String :=
  (Text.lines (Text.ofUtf8 errors)).filter fun line => !Text.isBlankText line

/-- The document in what a finished tool wrote, if nothing speaks against it. -/
def toolOutput (status : Int) (output : Bytes) (lines : List String) : Except InputFault Bytes :=
  if status ≠ 0 then .error (.toolFailed status)
  else if !lines.isEmpty then .error (.toolReported lines.length)
  else if output.isEmpty then .error .noOutput
  else .ok output

/-- The lines the tool reported, and the document or why there is none. -/
abbrev Acquired := List String × Except InputFault Bytes

/-- What a file holds for the tool, if it can be read. Its path has to be an argument at least. -/
def imageFor (h : Host) (elf : String) : Except InputFault (Option Bytes) :=
  match h.read elf with
  | .ok image => .ok (some image)
  | .error cause => if cause.isReported then .ok none else .error (.noArgument elf cause)

/-- The start of the tool on an ELF file. -/
def toolCall (h : Host) (elf option : String) (timeout : Int) (isTemporary : Bool) :
    Except InputFault ToolCall := do
  let tool ← findTool h option
  return {
    command := [tool, toolCommand, elf], timeout := if timeout > 0 then some timeout else none
    image := ← imageFor h elf, isTemporary }

/-- What the tool leaves: the lines it reported, and the document or why there is none. -/
def acquired (timeout : Int) : ToolOutcome → Acquired
  | .timedOut =>
      ([], .error (if Text.isWritable timeout then .toolTimedOut timeout else .longTimeout))
  | .limitTooLong => ([], .error .limitTooLong)
  | .notStarted reason => ([], .error (.toolNotStarted reason))
  | .finished status output errors =>
      let lines := errorLines errors
      (lines, toolOutput status output lines)

/-- Runs the tool on an ELF file. -/
def runTool (elf : String) (option : String) (timeout : Int) (isTemporary : Bool) :
    StateM Host Acquired := do
  let h ← get
  match toolCall h elf option timeout isTemporary with
  | .error e => return ([], .error e)
  | .ok call =>
      set (h.record call)
      return acquired timeout h.outcome

/-- Fills a file with the program's image and runs the tool on it. -/
def runToolOnImage (path : String) (o : Options) (p : Program) : StateM Host Acquired := do
  match p.export (← get) path with
  | .error e => return ([], .error e)
  | .ok h =>
      set h
      runTool path o.toolPath o.timeout true

/-- Runs the tool on a temporary copy of the program's image. The file is there, and empty, before
the image is copied, and is removed whatever comes of that. -/
def runToolOnCopy (o : Options) (p : Program) : StateM Host Acquired := do
  let h ← get
  match h.temporaries with
  | none => return ([], .error .noTemporary)
  | some folder =>
      let path := folder ++ "/" ++ h.freshName "stdump_input" ".elf"
      match h.place path with
      | .error _ => return ([], .error .noTemporary)
      | .ok location =>
          set (h.putFile location [])
          let result ← runToolOnImage path o p
          modify (·.removeFile location)
          return result

/-- A document file comes before a named ELF file, and that before the program's own image. -/
def acquire (o : Options) (p : Program) : StateM Host Acquired := do
  let h ← get
  if o.jsonPath ≠ "" then
    return ([], (h.read o.jsonPath).mapError (.unreadable o.jsonPath))
  else if o.elfPath ≠ "" then
    if h.isFile o.elfPath then runTool o.elfPath o.toolPath o.timeout false
    else return ([], .error (.elfNotFound o.elfPath))
  else if p.canExport h then runToolOnCopy o p
  else return ([], .error .notExportable)

end Import

end StabsImport

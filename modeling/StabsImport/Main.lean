import StabsImport.CommandLine.Command

/-!
# The program

Collects what the command will look at, runs it, and writes what it leaves. No other program is
started from here, so a document has to be given as a file.
-/

namespace StabsImport.CommandLine

/-- A text as the system spells it. -/
def spelled (s : String) : String := String.ofList (Text.toChars s)

/-- The content of a file, if it can be read. -/
def readFile? (path : String) : IO (Option Text.Bytes) := do
  try
    return some (← IO.FS.readBinFile (spelled path)).toList
  catch _ => return none

/-- A host with the files at these paths, beside those it has. -/
def withFiles (h : Host) (paths : List String) : IO Host :=
  (paths.filter (· ≠ "")).foldlM
    (fun h path => do
      match ← readFile? path with
      | some content => return h.putFile (Host.locationOf path) content
      | none => return h)
    h

def variableNames : List String :=
  (Import.variablePrefix ++ "STDUMP_PATH") :: Import.Setting.all.map (·.variableName)

def environment : IO (Ledger String String) :=
  variableNames.foldlM
    (fun settings name => do
      match ← IO.getEnv name with
      | some value => return settings.put name (Text.ofChars value.toList)
      | none => return settings)
    {}

/-- What the command may look at: first what the arguments name, then what the options name. -/
def hostFor (a : Arguments) : IO Host := do
  let h : Host :=
    { room := .usual
      log := .stream
      environment := ← environment
      directories := [(Host.locationOf a.output).dropLast]
      outcome := .notStarted "no program can be started" }
  let h ← withFiles h [a.config, a.json, a.elf, a.stdump]
  match Import.settle h (some a.config) a.overrides with
  | .ok s => withFiles h [s.options.jsonPath, s.options.elfPath, s.options.toolPath]
  | .error _ => return h

/-- Writes the file named for the output, if the command made one. -/
def writeBack (a : Arguments) (h : Host) : IO Unit :=
  match h.content? a.output with
  | some content => IO.FS.writeBinFile (spelled a.output) ⟨content.toArray⟩
  | none => pure ()

def finish (result : Outcome) : IO UInt32 := do
  IO.print result.output
  result.log.forM fun line => IO.eprintln (spelled line)
  match result.ending with
  | .exit status => return UInt32.ofNat status
  | .fault e =>
      IO.eprintln (spelled (e.title ++ ": " ++ e.message))
      return 1

end StabsImport.CommandLine

open StabsImport.CommandLine

def main (args : List String) : IO UInt32 := do
  let args := args.map fun s => StabsImport.Text.ofChars s.toList
  match Arguments.read args with
  | .error _ => finish (run args {})
  | .ok a =>
      let result := run args (← hostFor a)
      let isWritten := result.ending = .exit 0 || result.ending = .fault .longNumber
      if isWritten && a.output ≠ "" then writeBack a result.host
      finish result

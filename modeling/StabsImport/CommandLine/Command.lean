import StabsImport.CommandLine.Arguments
import StabsImport.Import.Run
import StabsImport.Import.Settings
import StabsImport.Program.Summary

/-!
# The command

Imports one document into an empty program and writes the summary of the program, with the
diagnostics of the run, as JSON. What is given on the command line wins over the environment and
the options file.
-/

namespace StabsImport.CommandLine

open Import (SettingsFault)

inductive CommandFault where
  | settings (cause : SettingsFault)
  | noSummary (cause : Fault)
  | unwritable (path : String) (cause : PathFault)
  /-- A number in the summary is too long to be written. -/
  | longNumber
  deriving DecidableEq

namespace CommandFault

def title : CommandFault → String
  | settings cause => cause.title
  | noSummary cause => cause.title
  | unwritable _ cause => cause.title
  | longNumber => "ValueError"

def message : CommandFault → String
  | settings cause => cause.message
  | noSummary cause => cause.message
  | unwritable path cause => cause.message path
  | longNumber => Text.longNumberMessage

end CommandFault

/-- The command ends with a status, or with a fault that nothing in it answers for. -/
inductive Ending where
  | exit (status : Nat)
  | fault (e : CommandFault)
  deriving DecidableEq

structure Outcome where
  ending : Ending
  /-- What is written to standard output. -/
  output : String := ""
  /-- What is logged as a warning or worse. -/
  log : List String := []
  host : Host

/-- Only what is given overrides anything. -/
def Arguments.overrides (a : Arguments) : List (Yaml.Value × Yaml.Value) :=
  let off (isOn : Bool) (name : String) := if isOn then [] else [(name, Yaml.Value.bool false)]
  let path (text name : String) := if text = "" then [] else [(name, Yaml.Value.text text)]
  (off a.importTypes "import_data_types" ++ off a.importFunctions "import_functions" ++
    off a.importGlobals "import_globals" ++ off a.markInlined "mark_inlined_code" ++
    off a.outputLines "output_line_numbers" ++ path a.elf "override_elf_path" ++
    path a.json "override_json_path" ++ path a.stdump "stdump_path").map
      fun e => (.text e.1, e.2)

def diagnosticJson (d : String × String) : Json :=
  .object [("source", .text d.1), ("message", .text d.2)]

/-- What the command writes after an import. -/
def report (i : Importer) : Except Fault Json := do
  let fields ← i.session.program.summaryFields Arena.keyText
  return .object <| fields ++
    [("diagnostics", .list (i.session.journal.diagnostics.map diagnosticJson))]

/-- The program before the import. -/
def emptyProgram (a : Arguments) : Program :=
  let program : Program := { executable := if a.elf = "" then none else some a.elf }
  match a.pointerSize with
  | some pointerSize => { program with pointerSize }
  | none => program

/-- The importer for these options. -/
def importerOf (a : Arguments) (o : Options) (h : Host) : Importer :=
  let i := Importer.start (emptyProgram a) o (h.inside 1) {}
  { i with session.knowsPointerSize := a.pointerSize.isSome }

/-- Writes the report of a successful import to the file named, or to standard output. What comes
before a number that is too long is written nevertheless. -/
def deliver (a : Arguments) (i : Importer) (log : List String) : Outcome :=
  match report i with
  | .error cause => { ending := .fault (.noSummary cause), log, host := i.host }
  | .ok summary =>
      let (text, ending) : String × Ending :=
        if summary.isWritable then (summary.indented 0, .exit 0)
        else (summary.indentedStart 0, .fault .longNumber)
      if a.output = "" then
        let output := if summary.isWritable then text ++ "\n" else text
        { ending, output, log, host := i.host }
      else
        match i.host.write a.output (Text.encodeUtf8 text) with
        | .ok host => { ending, log, host }
        | .error cause => { ending := .fault (.unwritable a.output cause), log, host := i.host }

def importWith (a : Arguments) (h : Host) : Outcome :=
  match Import.settle (h.inside 1) (some a.config) a.overrides with
  | .error e =>
      if e.cause.isReported then
        { ending := .exit 1, log := e.warnings ++ [e.cause.message], host := h }
      else { ending := .fault (.settings e.cause), log := e.warnings, host := h }
  | .ok settled =>
      let (success, i) := Import.run (importerOf a settled.options h)
      let log := settled.warnings ++ i.session.journal.logTexts
      if success then deliver a i log
      else { ending := .exit 1, log := log ++ ["Import failed"], host := i.host }

def run (args : List String) (h : Host) : Outcome :=
  match Arguments.read args with
  | .error .helpWanted => { ending := .exit 0, output := helpText, host := h }
  | .error .badUsage => { ending := .exit 2, host := h }
  | .ok a => importWith a h

end StabsImport.CommandLine

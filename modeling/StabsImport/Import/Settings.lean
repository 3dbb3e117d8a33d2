import StabsImport.Import.Input
import StabsImport.Text.Case

/-!
# Where options come from

Options start from their defaults. An options file, the environment and explicit overrides follow
in this order, each setting the options it names and leaving the others alone. What is unknown or
of the wrong type is passed over with a warning.
-/

namespace StabsImport.Import

open Yaml (Value)

/-- How an option is read from options and put into them, by its type. -/
inductive Slot where
  | flag (get : Options → Bool) (set : Options → Bool → Options)
  | number (get : Options → Int) (set : Options → Int → Options)
  | text (set : Options → String → Options)

/-- An option under its two spellings. -/
structure Setting where
  name : String
  camelName : String
  slot : Slot

namespace Setting

def all : List Setting :=
  [⟨"import_data_types", "importDataTypes",
      .flag (·.importTypes) fun o b => { o with importTypes := b }⟩,
   ⟨"import_functions", "importFunctions",
      .flag (·.importFunctions) fun o b => { o with importFunctions := b }⟩,
   ⟨"import_globals", "importGlobals",
      .flag (·.importGlobals) fun o b => { o with importGlobals := b }⟩,
   ⟨"mark_inlined_code", "markInlinedCode",
      .flag (·.markInlined) fun o b => { o with markInlined := b }⟩,
   ⟨"output_line_numbers", "outputLineNumbers",
      .flag (·.outputLines) fun o b => { o with outputLines := b }⟩,
   ⟨"override_elf_path", "overrideElfPath", .text fun o s => { o with elfPath := s }⟩,
   ⟨"override_json_path", "overrideJsonPath", .text fun o s => { o with jsonPath := s }⟩,
   ⟨"stdump_path", "stdumpPath", .text fun o s => { o with toolPath := s }⟩,
   ⟨"stdump_timeout_seconds", "stdumpTimeoutSeconds",
      .number (·.timeout) fun o n => { o with timeout := n }⟩]

/-- The setting a key names, under either spelling. -/
def named? (key : Value) : Option Setting :=
  match key with
  | .text s => all.find? fun e => e.name == s || e.camelName == s
  | _ => none

def variableName (e : Setting) : String := variablePrefix ++ e.name.toUpper

end Setting

/-! ## Where entries come from -/

inductive SettingsFault where
  | unreadable (path : String) (cause : PathFault)
  | undecodable (cause : Text.DecodeFault)
  | badValue (path : String) (cause : Yaml.Fault)
  | notMapping (path : String)
  | unwritten (cause : Yaml.WritingFault)
  deriving DecidableEq, Repr

namespace SettingsFault

/-- Whether the fault is one of configuration, as opposed to one that escapes its reader. -/
def isReported : SettingsFault → Bool
  | unreadable _ cause => cause.isReported
  | badValue _ cause => cause == .malformed
  | notMapping _ => true
  | undecodable _ | unwritten _ => false

def title : SettingsFault → String
  | unreadable _ cause => if cause.isReported then "ConfigurationError" else cause.title
  | undecodable _ => "UnicodeDecodeError"
  | badValue _ cause => cause.title
  | notMapping _ => "ConfigurationError"
  | unwritten cause => cause.title

def message : SettingsFault → String
  | unreadable path cause =>
      if cause.isReported then s!"cannot read {path}: {cause.message path}"
      else cause.message path
  | undecodable cause => cause.message
  | badValue path .malformed => "invalid YAML in " ++ path
  | badValue _ cause => cause.message
  | notMapping path => path ++ " must contain a mapping"
  | unwritten cause => cause.message

end SettingsFault

/-- The value of an entry. That of a key which names no setting is never looked at. -/
def namedValue (key : Value) (value : Unit → Value) : Value :=
  if (Setting.named? key).isSome then value () else .null

/-- The entries of an options file, which is a text; an empty file has none. -/
def fileEntries (h : Host) (path : String) : Except SettingsFault (List (Value × Value)) :=
  match h.read path with
  | .error cause => .error (.unreadable path cause)
  | .ok bytes =>
      match Text.decodeFault? bytes with
      | some cause => .error (.undecodable cause)
      | none =>
          match h.loadYaml h.room (Text.decodeUtf8 bytes) with
          | .error cause => .error (.badValue path cause)
          | .ok .nothing => .ok []
          | .ok (.mapping entries) => .ok (entries.map fun e => (e.1, namedValue e.1 e.2))
          | .ok .other => .error (.notMapping path)

/-- The entries that a path stands for. No path, or an empty one, means no file. -/
def entriesAt (h : Host) (path : Option String) : Except SettingsFault (List (Value × Value)) :=
  match path.filter (· ≠ "") with
  | some path => fileEntries h path
  | none => .ok []

/-! ## Putting options in place -/

/-- Options, and the warnings given on the way to them. -/
structure Settled where
  options : Options := {}
  warnings : List String := []
  deriving DecidableEq, Repr, Inhabited

/-- Why there are no options, and the warnings given until then. -/
structure Unsettled where
  cause : SettingsFault
  warnings : List String := []
  deriving DecidableEq, Repr

namespace Settled

def warn (s : Settled) (text : String) : Settled := { s with warnings := s.warnings ++ [text] }

def change (s : Settled) (options : Options) : Settled := { s with options }

/-- Logs a text that has a value in it, from inside so many calls. -/
def log (h : Host) (calls : Nat) (value : Value) (text : Unit → String) (s : Settled) :
    Except Unsettled Settled :=
  match value.writingFault? (h.room.inside (calls + h.log.calls)) with
  | none => .ok (s.warn (text ()))
  | some cause => if h.log.passesOver cause then .ok s else .error ⟨.unwritten cause, s.warnings⟩

/-! ### Entries of a mapping -/

/-- A text option takes any value by its text, and no value as no text. -/
def textOf : Value → String
  | .null => ""
  | v => v.plain

/-- Why a value has no text, if it has none. -/
def textFault? (room : Room) : Value → Option Yaml.WritingFault
  | .null | .text _ => none
  | v => v.writingFault? room

def applyEntry (h : Host) (s : Settled) (e : Value × Value) : Except Unsettled Settled :=
  let (key, value) := e
  match Setting.named? key with
  | none => s.log h 2 key fun _ => "Ignoring unknown option " ++ key.shown
  | some setting =>
      match setting.slot, value with
      | .flag _ set, .bool b => .ok (s.change (set s.options b))
      | .flag .., v =>
          s.log h 2 v fun _ => s!"Option {key.plain} must be a boolean, got {v.shown}"
      | .number _ set, .int n => .ok (s.change (set s.options n))
      | .number .., v =>
          s.log h 2 v fun _ => s!"Option {key.plain} must be an integer, got {v.shown}"
      | .text set, v =>
          match textFault? (h.room.inside 2) v with
          | none => .ok (s.change (set s.options (textOf v)))
          | some cause => .error ⟨.unwritten cause, s.warnings⟩

def applyEntries (h : Host) (s : Settled) (entries : List (Value × Value)) :
    Except Unsettled Settled :=
  entries.foldlM (applyEntry h) s

/-! ### The environment -/

/-- Every text but these stands for true. -/
def falseWords : List String := ["0", "false", "no", "off"]

def flagOf (raw : String) : Bool := !falseWords.contains (Text.lower (Text.trim raw))

/-- A number is at least zero. -/
def applyNumber (h : Host) (s : Settled) (name raw : String) (current : Int)
    (set : Int → Options) : Except Unsettled Settled :=
  match Text.integer? raw with
  | none =>
      s.log h 3 (.int current) fun _ =>
        s!"Invalid {name}={Text.quoted raw}; using default {current}"
  | some n =>
      if n < 0 then
        (s.log h 3 (.int 0) fun _ => s!"Invalid {name}={Text.quoted raw}; using minimum 0").map
          (·.change (set 0))
      else .ok (s.change (set n))

/-- An empty variable is like none. -/
def applyVariable (h : Host) (s : Settled) (e : Setting) : Except Unsettled Settled :=
  let raw := (h.environment.get? e.variableName).getD ""
  if raw = "" then .ok s
  else
    match e.slot with
    | .flag _ set => .ok (s.change (set s.options (flagOf raw)))
    | .number get set => s.applyNumber h e.variableName raw (get s.options) (set s.options)
    | .text set => .ok (s.change (set s.options raw))

def applyEnvironment (h : Host) (s : Settled) : Except Unsettled Settled :=
  Setting.all.foldlM (applyVariable h) s

end Settled

/-- The options from all sources. -/
def settle (h : Host) (path : Option String) (overrides : List (Value × Value)) :
    Except Unsettled Settled := do
  let entries ← (entriesAt h path).mapError fun cause => ⟨cause, []⟩
  let s ← Settled.applyEntries h {} entries
  let s ← s.applyEnvironment h
  s.applyEntries h overrides

end StabsImport.Import

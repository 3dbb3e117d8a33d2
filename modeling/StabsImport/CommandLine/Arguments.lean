import StabsImport.Text.Numeral

/-!
# Arguments of the command

Options only. A long option may be cut short as far as it stays unambiguous, and its value follows
it as the next argument or after `=`. A number with a minus sign and anything with a space in it
count as values, not as options.
-/

namespace StabsImport.CommandLine

inductive Switch where
  | help
  | noTypes
  | noFunctions
  | noGlobals
  | noInlineMarkers
  | noLineNumbers
  | verbose
  deriving DecidableEq, Repr

inductive Setter where
  | config
  | elf
  | json
  | stdump
  | pointerSize
  | output
  deriving DecidableEq, Repr

/-- An option that stands alone, or one with a value. -/
inductive Flag where
  | switch (s : Switch)
  | setter (s : Setter)
  deriving DecidableEq, Repr

def flags : List (String × Flag) :=
  [("--help", .switch .help), ("--config", .setter .config), ("--elf", .setter .elf),
   ("--json", .setter .json), ("--stdump", .setter .stdump), ("--no-types", .switch .noTypes),
   ("--no-functions", .switch .noFunctions), ("--no-globals", .switch .noGlobals),
   ("--no-inline-markers", .switch .noInlineMarkers),
   ("--no-line-numbers", .switch .noLineNumbers), ("--pointer-size", .setter .pointerSize),
   ("--output", .setter .output), ("--verbose", .switch .verbose)]

structure Arguments where
  config : String := ""
  elf : String := ""
  json : String := ""
  stdump : String := ""
  importTypes : Bool := true
  importFunctions : Bool := true
  importGlobals : Bool := true
  markInlined : Bool := true
  outputLines : Bool := true
  /-- Nothing if the option was given without a size. -/
  pointerSize : Option Int := some 4
  output : String := ""
  isVerbose : Bool := false
  deriving DecidableEq, Repr, Inhabited

/-- Why there are no arguments to go on with. -/
inductive Stop where
  | helpWanted
  | badUsage
  deriving DecidableEq, Repr

/-! ## Words -/

/-- What an argument is by itself. -/
inductive Word where
  | flag (f : Flag) (value : Option String)
  | unknown
  | plain
  | separator
  deriving DecidableEq, Repr

/-- The part before the first `=`, and the part after it if there is one. -/
def splitValue (s : String) : String × Option String :=
  let name := s.toList.takeWhile (· != '=')
  match s.toList.drop name.length with
  | _ :: value => (String.ofList name, some (String.ofList value))
  | [] => (s, none)

/-- Digits, or a point with digits after it, behind a minus sign. A line feed may end it. -/
def isNegativeNumber (s : String) : Bool :=
  let isDigit (c : Char) := (Text.decimalDigit? c).isSome
  match Text.withoutLineFeed s.toList with
  | '-' :: cs =>
      let whole := cs.takeWhile isDigit
      match cs.drop whole.length with
      | [] => !whole.isEmpty
      | '.' :: fraction => !fraction.isEmpty && fraction.all isDigit
      | _ => false
  | _ => false

/-- The options whose names start like this. -/
def flagsLike (name : String) : List Flag :=
  (flags.filter fun e => name.toList.isPrefixOf e.1.toList).map (·.2)

def plainOrUnknown (s : String) : Word :=
  if isNegativeNumber s || s.toList.contains ' ' then .plain else .unknown

/-- A word that starts with two dashes; more than one option may fit it. -/
def longWord (s : String) : Except Stop Word :=
  let (name, value) := splitValue s
  match flags.lookup s, flags.lookup name with
  | some f, _ => .ok (.flag f none)
  | none, some f => .ok (.flag f value)
  | none, none =>
      match flagsLike name with
      | [] => .ok (plainOrUnknown s)
      | [f] => .ok (.flag f value)
      | _ => .error .badUsage

/-- The short form of the option for help may repeat its letter, also as a value, and takes nothing
else. -/
def shortHelpWord (rest : List Char) : Word :=
  let isRepeated :=
    match rest with
    | '=' :: value => !value.isEmpty && value.all (· == 'h')
    | letters => letters.all (· == 'h')
  .flag (.switch .help) (if isRepeated then none else some (String.ofList rest))

def wordOf (s : String) : Except Stop Word :=
  match s.toList with
  | '-' :: '-' :: _ => longWord s
  | '-' :: 'h' :: rest => .ok (shortHelpWord rest)
  | '-' :: _ :: _ => .ok (plainOrUnknown s)
  | _ => .ok .plain

/-- All arguments as words. After two dashes by themselves none is an option. -/
def wordsOf : List String → Except Stop (List (Word × String))
  | [] => .ok []
  | s :: rest =>
      if s = "--" then .ok ((.separator, s) :: rest.map fun t => (.plain, t))
      else do
        let word ← wordOf s
        return (word, s) :: (← wordsOf rest)

/-! ## Reading -/

/-- The arguments so far, which of the two input options count as given, and whether there was
anything that is no option. -/
structure Progress where
  arguments : Arguments := {}
  hasElf : Bool := false
  hasJson : Bool := false
  hasExtra : Bool := false
  deriving DecidableEq, Repr, Inhabited

def applySwitch (a : Arguments) : Switch → Except Stop Arguments
  | .help => .error .helpWanted
  | .noTypes => .ok { a with importTypes := false }
  | .noFunctions => .ok { a with importFunctions := false }
  | .noGlobals => .ok { a with importGlobals := false }
  | .noInlineMarkers => .ok { a with markInlined := false }
  | .noLineNumbers => .ok { a with outputLines := false }
  | .verbose => .ok { a with isVerbose := true }

/-- Only one of the two input options may count as given. -/
def applySetter (p : Progress) (value : String) (isGiven : Bool) : Setter → Except Stop Progress
  | .config => .ok { p with arguments.config := value }
  | .elf =>
      if isGiven && p.hasJson then .error .badUsage
      else .ok { p with arguments.elf := value, hasElf := p.hasElf || isGiven }
  | .json =>
      if isGiven && p.hasElf then .error .badUsage
      else .ok { p with arguments.json := value, hasJson := p.hasJson || isGiven }
  | .stdump => .ok { p with arguments.stdump := value }
  | .pointerSize =>
      match Text.integer? value with
      | some n => .ok { p with arguments.pointerSize := some n }
      | none => .error .badUsage
  | .output => .ok { p with arguments.output := value }

/-- An empty value counts as none. Two dashes as the value of an option are dropped, and leave a
value that is empty but given, or no size. -/
def applyValue (p : Progress) (value : String) (s : Setter) : Except Stop Progress :=
  if value ≠ "--" then applySetter p value (value ≠ "") s
  else if s = .pointerSize then .ok { p with arguments.pointerSize := none }
  else applySetter p "" true s

def readWords (p : Progress) : List (Word × String) → Except Stop Progress
  | [] => .ok p
  | (.flag (.switch s) none, _) :: rest => do
      readWords { p with arguments := ← applySwitch p.arguments s } rest
  | (.flag (.switch _) (some _), _) :: _ => .error .badUsage
  | (.flag (.setter s) (some value), _) :: rest => do readWords (← applyValue p value s) rest
  | (.flag (.setter s) none, _) :: (.plain, value) :: rest => do
      readWords (← applyValue p value s) rest
  | (.flag (.setter _) none, _) :: _ => .error .badUsage
  | _ :: rest => readWords { p with hasExtra := true } rest

/-- Reads from left to right and stops at the first fault. -/
def Arguments.read (args : List String) : Except Stop Arguments := do
  let p ← readWords {} (← wordsOf args)
  if p.hasExtra then throw .badUsage
  return p.arguments

def helpText : String :=
"usage: stdump-import [-h] [--config CONFIG] [--elf ELF | --json JSON]
                     [--stdump STDUMP] [--no-types] [--no-functions]
                     [--no-globals] [--no-inline-markers] [--no-line-numbers]
                     [--pointer-size POINTER_SIZE] [--output OUTPUT]
                     [--verbose]

Import STABS debug information reported by stdump into a program database and
print the result.

options:
  -h, --help            show this help message and exit
  --config CONFIG       YAML options file
  --elf ELF             ELF file to run stdump against
  --json JSON           Existing stdump print_json output
  --stdump STDUMP       Path to stdump
  --no-types
  --no-functions
  --no-globals
  --no-inline-markers
  --no-line-numbers
  --pointer-size POINTER_SIZE
  --output OUTPUT       Write the resulting database here (JSON)
  --verbose
"

end StabsImport.CommandLine

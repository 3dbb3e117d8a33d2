import StabsImport.Address
import StabsImport.Program.Storage
import StabsImport.Types.Layout

/-!
# Programs

A program holds what is known of an executable: its named types, functions, symbols, comments and
data, each table keyed by address. Its operations are edits: they answer a value or a fault, and
the program they leave behind is part of the answer in both cases.
-/

namespace StabsImport

inductive SourceKind where
  | default
  | analysis
  | imported
  | userDefined
  deriving DecidableEq, Repr, Inhabited

inductive CommentKind where
  | eol
  | pre
  | plate
  deriving DecidableEq, Repr, Inhabited

inductive SymbolKind where
  | label
  | function
  deriving DecidableEq, Repr, Inhabited

def SourceKind.text : SourceKind → String
  | default => "default"
  | analysis => "analysis"
  | imported => "imported"
  | userDefined => "user_defined"

def CommentKind.text : CommentKind → String
  | eol => "eol"
  | pre => "pre"
  | plate => "plate"

def SymbolKind.text : SymbolKind → String
  | label => "label"
  | function => "function"

def SourceKind.ofText? (s : String) : Option SourceKind :=
  [default, analysis, imported, userDefined].find? (·.text == s)

def CommentKind.ofText? (s : String) : Option CommentKind := [eol, pre, plate].find? (·.text == s)

def SymbolKind.ofText? (s : String) : Option SymbolKind := [label, function].find? (·.text == s)

/-- A symbol stands under its address; how that is spelled here is its own affair. -/
structure Symbol where
  address : Whole
  name : String
  kind : SymbolKind := .label
  source : SourceKind := .analysis
  primary : Bool := false
  deriving DecidableEq, Repr, Inhabited

/-- Whether two symbols are the same, however their addresses are spelled. -/
def Symbol.same (s t : Symbol) : Bool :=
  Key.same s.address t.address && s.name == t.name && s.kind == t.kind && s.source == t.source &&
    s.primary == t.primary

structure Parameter where
  name : String
  type : TypeId
  ordinal : Nat := 0
  storage : String := ""
  deriving DecidableEq, Repr, Inhabited

structure LocalVariable where
  name : String
  type : TypeId
  stackOffset : Int
  deriving DecidableEq, Repr, Inhabited

structure DataItem where
  type : TypeId
  length : Int
  deriving DecidableEq, Repr, Inhabited

/-- The body runs from its first address to its last. The comment is a document value, null for
none. -/
structure Function where
  name : String
  entry : Whole
  body : Whole × Bound
  comment : Json := .null
  returnType : Option TypeId := none
  parameters : List Parameter := []
  locals : List LocalVariable := []
  deriving DecidableEq, Inhabited

namespace Function

def low (f : Function) : Bound := .whole f.body.1

def high (f : Function) : Bound := f.body.2

def contains (f : Function) (address : Int) : Bool :=
  f.low.le (.ofInt address) && (Bound.ofInt address).le f.high

end Function

structure Program where
  executable : Option String := none
  pointerSize : Int := 4
  convention : CallingConvention := .standard
  /-- Inclusive ranges; none means that all of memory is mapped. -/
  memory : List (Int × Int) := []
  arena : Arena := {}
  registry : Ledger Json TypeId := {}
  functions : Ledger Int Function := {}
  /-- No address has an empty list. -/
  symbols : Ledger Whole (List Symbol) := {}
  comments : Ledger (Int × CommentKind) String := {}
  data : Ledger Int DataItem := {}
  deriving Inhabited

abbrev Edit := ExceptT Fault (StateM Program)

namespace Program

def reject {α : Type} (cause : Rejection) : Edit α := throw (.rejected cause)

/-- An edit that gives a fault leaves the program alone. -/
def ofExcept {α : Type} : Except Rejection α → Edit α
  | .ok x => pure x
  | .error cause => reject cause

def ofResult {α : Type} : Except Fault α → Edit α
  | .ok x => pure x
  | .error e => throw e

/-- What can be read off the program, or why it cannot. -/
def view {α : Type} (f : Program → Except Fault α) : Edit α := do ofResult (f (← get))

/-- The name a function has while no other is known. -/
def defaultName (entry : Int) : String := "FUN_" ++ Text.hex8 entry

end Program

end StabsImport

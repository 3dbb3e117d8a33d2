import StabsImport.Text.Quoted

/-!
# What can go wrong with a program

Causes, not texts: a rejection is a change the program database refuses, the other faults come
from types that cannot be built and from document values of the wrong kind. The wordings stand in
one place, `Rejection.message` and `Fault.message`.
-/

namespace StabsImport

inductive Rejection where
  | undefinedSize
  | elementWithoutSize (type : String)
  | negativeCount
  | repeatedConstant (name : String)
  | negativeOffset (offset : Int)
  | fieldWithoutSize (name : String)
  | badBitField (name : String)
  | typeWithoutSize (type : String)
  | noReturnType (function : String)
  | unnamedParameter (function : String)
  | unnamedLocal (function : String)
  | badBody (low high entry : Int)
  | emptyName
  | blankInName (name : String)
  | repeatedParameter (name function : String)
  | localNamedAsParameter (name function : String)
  | localElsewhere (name function : String) (offset : Int)
  | functionExists (entry : Int)
  | bodyOverlap (name other : String)
  | dataWithoutLength (type : String) (length : Int)
  | unmapped (address : Int)
  | dataOnCode (address : Int) (function : String)
  | dataOnData (address : Int)
  deriving DecidableEq, Repr

inductive RejectionClass where
  | invalidInput
  | duplicateName
  | codeUnit
  deriving DecidableEq, Repr

namespace Rejection

def category : Rejection → RejectionClass
  | repeatedParameter .. | localNamedAsParameter .. | localElsewhere .. => .duplicateName
  | functionExists .. | bodyOverlap .. | dataWithoutLength .. | unmapped .. | dataOnCode ..
  | dataOnData .. => .codeUnit
  | _ => .invalidInput

def message : Rejection → String
  | undefinedSize => "undefined type size must be positive"
  | elementWithoutSize type => s!"array element type {type} has no size"
  | negativeCount => "negative array element count"
  | repeatedConstant name => s!"duplicate enum member {name}"
  | negativeOffset offset => s!"negative field offset {offset}"
  | fieldWithoutSize name => s!"field {name} has no size"
  | badBitField name => s!"invalid bitfield {name}"
  | typeWithoutSize type => s!"type {type} has no size"
  | noReturnType function => s!"return type of {function} is missing"
  | unnamedParameter function => s!"parameter of {function} has no name"
  | unnamedLocal function => s!"local variable of {function} has no name"
  | badBody low high entry =>
      s!"invalid body [{Text.hex low}, {Text.hex high}] for {Text.hex entry}"
  | emptyName => "symbol name must not be empty"
  | blankInName name => s!"symbol name {Text.quoted name} contains whitespace"
  | repeatedParameter name function => s!"parameter {name} of {function} defined twice"
  | localNamedAsParameter name function => s!"local {name} of {function} collides with a parameter"
  | localElsewhere name function offset =>
      s!"local {name} of {function} already exists at stack offset {offset}"
  | functionExists entry => s!"function already exists at {Text.hex entry}"
  | bodyOverlap name other => s!"body of {name} overlaps function {other}"
  | dataWithoutLength type length => s!"cannot create {type} with length {length}"
  | unmapped address => s!"{Text.hex address} is not in mapped memory"
  | dataOnCode address function =>
      s!"data at {Text.hex address} conflicts with instructions of {function}"
  | dataOnData address => s!"conflicting data exists at {Text.hex address}"

end Rejection

def RejectionClass.title : RejectionClass → String
  | invalidInput => "InvalidInputError"
  | duplicateName => "DuplicateNameError"
  | codeUnit => "CodeUnitInsertionError"

inductive Fault where
  | rejected (cause : Rejection)
  /-- A type is wanted where the document has none. -/
  | missingType
  /-- A node of this kind stands where a type is wanted. -/
  | notAType (kind : String)
  /-- The stack alignment of the calling convention is zero. -/
  | zeroAlignment
  /-- A document value is used as a kind of value that it is not. -/
  | wrongKind
  /-- A document value is asked for something its kind does not have. -/
  | noSuchPart
  /-- More is in the course of resolution than there is room for, or than the table has. -/
  | tooDeep
  deriving DecidableEq, Repr

namespace Fault

def title : Fault → String
  | rejected cause => cause.category.title
  | missingType | notAType _ => "TypeResolutionError"
  | zeroAlignment => "ZeroDivisionError"
  | wrongKind => "TypeError"
  | noSuchPart => "AttributeError"
  | tooDeep => "RecursionError"

def message : Fault → String
  | rejected cause => cause.message
  | missingType => "missing type"
  | notAType kind => s!"{kind} does not describe a type"
  | zeroAlignment => "integer modulo by zero"
  | wrongKind | noSuchPart | tooDeep => ""

/-- The fault's class, and its message if it has one. -/
def report (e : Fault) : String :=
  if e.message.isEmpty then e.title else e.title ++ ": " ++ e.message

/-- The faults that concern one item of a document: they end that item and are reported, while all
others end the whole import. -/
def isRejection : Fault → Bool
  | rejected _ => true
  | _ => false

/-- The faults of building a type. -/
def isTypeFault : Fault → Bool
  | rejected cause => cause.category == .invalidInput
  | missingType | notAType _ => true
  | _ => false

end Fault

end StabsImport

import StabsImport.Address
import StabsImport.Import.Inline
import StabsImport.Ledger

/-!
# Debugging information

What a document says about a program: source files with their functions and globals, and one table
of types that all files refer to by number or by name. Values that nothing checks while a document
is read, such as names and paths, stay JSON values. Each node has a serial number, its identity
within a document.
-/

namespace StabsImport.Document

inductive StorageClass where
  | none
  | typedef
  | extern_
  | static
  | auto
  | register
  deriving DecidableEq, Repr, Inhabited

inductive VariableClass where
  | global
  | local_
  | parameter
  deriving DecidableEq, Repr, Inhabited

inductive StorageKind where
  | global
  | register
  | stack
  deriving DecidableEq, Repr, Inhabited

inductive Section where
  | nil
  | data
  | bss
  | abs
  | sdata
  | sbss
  | rdata
  | common
  | scommon
  deriving DecidableEq, Repr, Inhabited

inductive BuiltInClass where
  | void
  | unsigned8
  | signed8
  | unqualified8
  | bool8
  | unsigned16
  | signed16
  | unsigned32
  | signed32
  | float32
  | unsigned64
  | signed64
  | float64
  | unsigned128
  | signed128
  | unqualified128
  | float128
  | unknown
  deriving DecidableEq, Repr, Inhabited

namespace StorageClass

def all : List StorageClass := [none, typedef, extern_, static, auto, register]

def text : StorageClass → String
  | none => "none"
  | typedef => "typedef"
  | extern_ => "extern"
  | static => "static"
  | auto => "auto"
  | register => "register"

end StorageClass

namespace VariableClass

def all : List VariableClass := [global, local_, parameter]

def text : VariableClass → String
  | global => "global"
  | local_ => "local"
  | parameter => "parameter"

end VariableClass

namespace StorageKind

def all : List StorageKind := [global, register, stack]

def text : StorageKind → String
  | global => "global"
  | register => "register"
  | stack => "stack"

end StorageKind

namespace Section

def all : List Section := [nil, data, bss, abs, sdata, sbss, rdata, common, scommon]

def text : Section → String
  | nil => "nil"
  | data => "data"
  | bss => "bss"
  | abs => "abs"
  | sdata => "sdata"
  | sbss => "sbss"
  | rdata => "rdata"
  | common => "common"
  | scommon => "scommon"

end Section

namespace BuiltInClass

def all : List BuiltInClass :=
  [void, unsigned8, signed8, unqualified8, bool8, unsigned16, signed16, unsigned32, signed32,
   float32, unsigned64, signed64, float64, unsigned128, signed128, unqualified128, float128,
   unknown]

def text : BuiltInClass → String
  | void => "void"
  | unsigned8 => "8-bit unsigned integer"
  | signed8 => "8-bit signed integer"
  | unqualified8 => "8-bit integer"
  | bool8 => "8-bit boolean"
  | unsigned16 => "16-bit unsigned integer"
  | signed16 => "16-bit signed integer"
  | unsigned32 => "32-bit unsigned integer"
  | signed32 => "32-bit signed integer"
  | float32 => "32-bit floating point"
  | unsigned64 => "64-bit unsigned integer"
  | signed64 => "64-bit signed integer"
  | float64 => "64-bit floating point"
  | unsigned128 => "128-bit unsigned integer"
  | signed128 => "128-bit signed integer"
  | unqualified128 => "128-bit integer"
  | float128 => "128-bit floating point"
  | unknown => "error"

end BuiltInClass

/-- What every node has. The name is null if the document gives none or an empty one. -/
structure Common where
  serial : Nat
  name : Json := .null
  storageClass : StorageClass := .none
  relativeOffset : Int := -1
  absoluteOffset : Int := -1
  sizeBits : Int := -1
  deriving DecidableEq, Inhabited

structure Storage where
  kind : StorageKind
  globalLocation : Section
  globalAddress : Int
  register : Json
  registerClass : Json
  dbxRegister : Int
  registerIndex : Int
  isByReference : Bool
  stackOffset : Int
  deriving DecidableEq, Inhabited

structure LineNumber where
  address : Int
  line : Int
  deriving DecidableEq, Inhabited

/-- The number of a type in the table of a file; the file is -1 where none is given. -/
structure TypeNumber where
  file : Int
  type : Whole
  deriving DecidableEq, Inhabited

structure TypeReference where
  typeName : Json
  fileIndex : Int
  number : Option TypeNumber
  deriving DecidableEq, Inhabited

structure VariableOf (τ : Type) where
  common : Common
  scope : VariableClass
  storage : Storage
  type : τ
  deriving Inhabited

structure FunctionTypeOf (τ : Type) where
  common : Common
  returnType : Option τ
  parameters : Option (List (VariableOf τ))
  modifier : Json
  isConstructor : Bool
  vtableIndex : Int
  deriving Inhabited

structure FunctionDefinitionOf (τ : Type) where
  common : Common
  low : Json
  high : Json
  relativePath : Json
  type : FunctionTypeOf τ
  locals : List (VariableOf τ)
  lineNumbers : List LineNumber
  breadcrumbs : List Import.Breadcrumb
  deriving Inhabited

structure SourceFileOf (τ : Type) where
  common : Common
  path : Json
  relativePath : Json
  textAddress : Int
  functions : List (FunctionDefinitionOf τ)
  globals : List (VariableOf τ)
  typeNumbers : Ledger (Int × Int) Int
  deriving Inhabited

structure BaseOf (τ : Type) where
  name : Json
  visibility : Json
  offset : Int
  type : τ
  deriving Inhabited

inductive Node where
  | array (common : Common) (element : Node) (count : Int)
  | bitField (common : Common) (offsetBits : Int) (underlying : Node)
  | builtIn (common : Common) (builtInClass : BuiltInClass)
  | enumeration (common : Common) (constants : List (Int × Json))
  | composite (common : Common) (isRecord : Bool) (bases : List (BaseOf Node))
      (fields memberFunctions : List Node)
  | pointer (common : Common) (isPointer : Bool) (target : Node)
  | memberPointer (common : Common) (classType memberType : Option Node)
  | typeName (common : Common) (reference : TypeReference)
  | functionType (f : FunctionTypeOf Node)
  | variable_ (v : VariableOf Node)
  | functionDefinition (d : FunctionDefinitionOf Node)
  | sourceFile (s : SourceFileOf Node)
  deriving Inhabited

abbrev Variable := VariableOf Node
abbrev FunctionType := FunctionTypeOf Node
abbrev FunctionDefinition := FunctionDefinitionOf Node
abbrev SourceFile := SourceFileOf Node
abbrev Base := BaseOf Node

namespace Node

def common : Node → Common
  | array c .. | bitField c .. | builtIn c .. | enumeration c .. | composite c .. | pointer c ..
  | memberPointer c .. | typeName c .. => c
  | functionType f => f.common
  | variable_ v => v.common
  | functionDefinition d => d.common
  | sourceFile s => s.common

def name (n : Node) : Json := n.common.name

def sizeBits (n : Node) : Int := n.common.sizeBits

def relativeOffset (n : Node) : Int := n.common.relativeOffset

/-- The kinds of nodes as messages call them. -/
def kind : Node → String
  | array .. => "Array"
  | bitField .. => "BitField"
  | builtIn .. => "BuiltIn"
  | enumeration .. => "InlineEnum"
  | composite .. => "InlineStructOrUnion"
  | pointer .. => "PointerOrReference"
  | memberPointer .. => "PointerToDataMember"
  | typeName .. => "TypeName"
  | functionType _ => "FunctionType"
  | variable_ _ => "Variable"
  | functionDefinition _ => "FunctionDefinition"
  | sourceFile _ => "SourceFile"

end Node

end Document

structure Document where
  files : List Document.SourceFile := []
  types : List Document.Node := []
  /-- How many serial numbers its nodes take up. -/
  size : Nat := 0
  deriving Inhabited

end StabsImport

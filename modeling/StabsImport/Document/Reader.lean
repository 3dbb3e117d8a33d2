import StabsImport.Document.Mismatch
import StabsImport.Json.Reader
import StabsImport.Text.Utf8

/-!
# Reading documents

A JSON value becomes a node by its descriptor. Each reader takes the parts of one kind of node in a
fixed order, which decides what is reported of a value with several faults, and is handed the
reader for the nodes inside. Nodes are numbered as they are read.
-/

namespace StabsImport.Document

/-- A reader of values, with the serial number of the next node. -/
abbrev Reading := StateT Nat (Except Mismatch)

abbrev NodeReader := Json → Reading Node

def fail {α : Type} (m : Mismatch) : Reading α := throw m

/-- All but the serial number is put in after the parts of the node have been read. -/
def nextCommon : Reading Common := do
  let serial ← get
  set (serial + 1)
  return { serial }

def asVariable : Node → Reading Variable
  | .variable_ v => return v
  | n => fail (.unexpectedNode "Variable" n.kind)

def asFunctionType : Node → Reading FunctionType
  | .functionType f => return f
  | n => fail (.unexpectedNode "FunctionType" n.kind)

def asFunctionDefinition : Node → Reading FunctionDefinition
  | .functionDefinition d => return d
  | n => fail (.unexpectedNode "FunctionDefinition" n.kind)

def asSourceFile : Node → Reading SourceFile
  | .sourceFile s => return s
  | n => fail (.unexpectedNode "SourceFile" n.kind)

def readEach {α : Type} (read : Json → Reading α) : List Json → Reading (List α)
  | [] => return []
  | v :: rest => return (← read v) :: (← readEach read rest)

/-- The items of a list field, each read in turn. -/
def readItems {α : Type} (key : String) (read : Json → Reading α) (v : Json) :
    Reading (List α) := do
  readEach read (← optionalItems key v)

def readOptional (sub : NodeReader) : Json → Reading (Option Node)
  | .null => return none
  | v => return some (← sub v)

def readVariableIn (sub : NodeReader) (v : Json) : Reading Variable := do asVariable (← sub v)

def readArray (sub : NodeReader) (v : Json) : Reading Node := do
  let element ← sub (← required "element_type" v)
  let count ← integer (← required "element_count" v)
  return .array (← nextCommon) element count

def readBitField (sub : NodeReader) (v : Json) : Reading Node := do
  let offsetBits ← integer (← required "bitfield_offset_bits" v)
  let underlying ← sub (← required "underlying_type" v)
  return .bitField (← nextCommon) offsetBits underlying

/-- A class takes more room to look up than other parts of a node that holds no others. -/
def readBuiltIn (hasRoom : Bool) (v : Json) : Reading Node := do
  let given ← required "class" v
  if !hasRoom then fail .tooDeep
  let c ← builtInClass given
  return .builtIn (← nextCommon) c

def readConstant (v : Json) : Reading (Int × Json) := do
  let value ← integer (← required "value" v)
  return (value, ← required "name" v)

def readEnumeration (v : Json) : Reading Node := do
  let constants ← readEach readConstant (← items (← required "constants" v))
  return .enumeration (← nextCommon) constants

def readLineNumber (v : Json) : Reading LineNumber := do
  let address ← integer (← required "address" v)
  return { address, line := ← integer (← required "line_number" v) }

def readBreadcrumb (v : Json) : Reading Import.Breadcrumb := do
  let address ← integer (← required "address" v)
  return { address, path := ← required "path" v }

def readFunctionDefinition (sub item : NodeReader) (v : Json) : Reading Node := do
  let range ← optional "address_range" .null v
  let range := if range.holds then range else .object []
  let type ← asFunctionType (← sub (← required "type" v))
  let low ← optional "low" .null range
  let high ← optional "high" .null range
  let relativePath ← optional "relative_path" .null v
  let locals ← readItems "locals" (readVariableIn item) v
  let lineNumbers ← readItems "line_numbers" readLineNumber v
  let breadcrumbs ← readItems "sub_source_files" readBreadcrumb v
  return .functionDefinition
    { common := ← nextCommon, low, high, relativePath, type, locals, lineNumbers, breadcrumbs }

def readFunctionType (item : NodeReader) (v : Json) : Reading Node := do
  let given ← optional "parameters" .null v
  let returnType ← readOptional item (← optional "return_type" .null v)
  let parameters ←
    match given with
    | .null => pure none
    | given => some <$> readEach (readVariableIn item) (← items given)
  let modifier ← optional "modifier" .null v
  let isConstructor ← optionalFlag "is_constructor" false v
  let vtableIndex ← optionalInteger "vtable_index" (-1) v
  return .functionType
    { common := ← nextCommon, returnType, parameters, modifier, isConstructor, vtableIndex }

def readBase (sub : NodeReader) (v : Json) : Reading Base := do
  let name ← optional "name" .null v
  let visibility ← optional "visibility" .null v
  let offset ← optionalInteger "offset" 0 v
  return { name, visibility, offset, type := ← sub (← required "type" v) }

/-- The descriptors that leave a choice to a flag have the two others as its values. -/
def readComposite (descriptor : String) (sub item : NodeReader) (v : Json) : Reading Node := do
  let isRecord ←
    if descriptor = "inline_struct_or_union" then optionalFlag "is_struct" true v
    else pure (descriptor = "struct")
  let bases ← readItems "base_classes" (readBase sub) v
  let fields ← readItems "fields" item v
  let memberFunctions ← readItems "member_functions" item v
  return .composite (← nextCommon) isRecord bases fields memberFunctions

def readPointer (descriptor : String) (sub : NodeReader) (v : Json) : Reading Node := do
  let isPointer ←
    if descriptor = "pointer_or_reference" then optionalFlag "is_pointer" true v
    else pure (descriptor = "pointer")
  let target ← sub (← required "value_type" v)
  return .pointer (← nextCommon) isPointer target

def readMemberPointer (item : NodeReader) (v : Json) : Reading Node := do
  let classType ← readOptional item (← optional "class_type" .null v)
  let memberType ← readOptional item (← optional "member_type" .null v)
  return .memberPointer (← nextCommon) classType memberType

/-- A number alone has no file; a truth value counts as a number. -/
def typeNumber : Json → Taken (Option TypeNumber)
  | .null => .ok none
  | .int n => .ok (some ⟨-1, ⟨n, false⟩⟩)
  | .bool b => .ok (some ⟨-1, ⟨b.toInt, true⟩⟩)
  | v => do
      let file ← optionalInteger "file" (-1) v
      let type ← integer (← required "type" v)
      return some ⟨file, ⟨type, false⟩⟩

def readTypeName (v : Json) : Reading Node := do
  let typeName ← optional "type_name" (.text "") v
  let fileIndex ← optionalInteger "referenced_file_index" (-1) v
  let number ← typeNumber (← optional "referenced_stabs_type_number" .null v)
  return .typeName (← nextCommon) { typeName, fileIndex, number }

/-- The index is looked at before the number. -/
def readNumbered (v : Json) : Reading ((Int × Int) × Int) := do
  let index ← integer (← required "index" v)
  let file ← optionalInteger "file" (-1) v
  let type ← integer (← required "type" v)
  return ((file, type), index)

def readSourceFile (item : NodeReader) (v : Json) : Reading Node := do
  let numbered ← readItems "stabs_type_number_to_deduplicated_type_index" readNumbered v
  let path ← required "path" v
  let relativePath ← optional "relative_path" path v
  let textAddress ← optionalInteger "text_address" (-1) v
  let functions ← readItems "functions" (fun f => do asFunctionDefinition (← item f)) v
  let globals ← readItems "globals" (readVariableIn item) v
  return .sourceFile
    { common := ← nextCommon, path, relativePath, textAddress, functions, globals
      typeNumbers := numbered.foldl (fun l (number, index) => l.put number index) {} }

def readStorage (v : Json) : Taken Storage := do
  let kind ← storageKind (← required "type" v)
  let location ← globalLocation (← optional "global_location" (.text "nil") v)
  let globalAddress ← optionalInteger "global_address" (-1) v
  let register ← optional "register" .null v
  let registerClass ← optional "register_class" .null v
  let dbxRegister ← optionalInteger "dbx_register_number" (-1) v
  let registerIndex ← optionalInteger "register_index" (-1) v
  let isByReference ← optionalFlag "is_by_reference" false v
  let stackOffset ← optionalInteger "stack_offset" (-1) v
  return { kind, globalLocation := location, globalAddress, register, registerClass, dbxRegister,
           registerIndex, isByReference, stackOffset }

def readVariable (sub : NodeReader) (v : Json) : Reading Node := do
  let scope ← variableClass (← optional "class" (.text "global") v)
  let storage ← readStorage (← required "storage" v)
  let type ← sub (← required "type" v)
  return .variable_ { common := ← nextCommon, scope, storage, type }

/-- The reader a descriptor names. -/
def readerFor? (hasRoom : Bool) (sub item : NodeReader) (descriptor : String) :
    Option NodeReader :=
  match descriptor with
  | "array" => some (readArray sub)
  | "bitfield" => some (readBitField sub)
  | "builtin" => some (readBuiltIn hasRoom)
  | "enum" | "inline_enum" => some readEnumeration
  | "function_definition" => some (readFunctionDefinition sub item)
  | "function_type" => some (readFunctionType item)
  | "struct" | "union" | "inline_struct_or_union" => some (readComposite descriptor sub item)
  | "pointer" | "reference" | "pointer_or_reference" => some (readPointer descriptor sub)
  | "pointer_to_data_member" => some (readMemberPointer item)
  | "source_file" => some (readSourceFile item)
  | "type_name" => some readTypeName
  | "variable" => some (readVariable sub)
  | _ => none

def Node.withCommon (c : Common) : Node → Node
  | array _ element count => array c element count
  | bitField _ offsetBits underlying => bitField c offsetBits underlying
  | builtIn _ builtInClass => builtIn c builtInClass
  | enumeration _ constants => enumeration c constants
  | composite _ isRecord bases fields functions => composite c isRecord bases fields functions
  | pointer _ isPointer target => pointer c isPointer target
  | memberPointer _ classType memberType => memberPointer c classType memberType
  | typeName _ reference => typeName c reference
  | functionType f => functionType { f with common := c }
  | variable_ v => variable_ { v with common := c }
  | functionDefinition d => functionDefinition { d with common := c }
  | sourceFile s => sourceFile { s with common := c }

/-- What all nodes have in common. A name that does not hold is none. -/
def readCommon (serial : Nat) (v : Json) : Taken Common := do
  let name ← optional "name" .null v
  let storage ← storageClass (← optional "storage_class" (.text "none") v)
  let relativeOffset ← optionalInteger "relative_offset_bytes" (-1) v
  let absoluteOffset ← optionalInteger "absolute_offset_bytes" (-1) v
  let sizeBits ← optionalInteger "size_bits" (-1) v
  return { serial, name := if name.holds then name else .null, storageClass := storage
           relativeOffset, absoluteOffset, sizeBits }

/-- A node, its parts read by `sub`, and by `item` those that stand in lists or may be missing. -/
def readDescribed (hasRoom : Bool) (sub item : NodeReader) (v : Json) : Reading Node := do
  let descriptor ← required "descriptor" v
  let reader ←
    match descriptor with
    | .list _ | .object _ => fail .wrongKind
    | .text s =>
        match readerFor? hasRoom sub item s with
        | some reader => pure reader
        | none => fail (.unknownDescriptor descriptor)
    | _ => fail (.unknownDescriptor descriptor)
  let node ← reader v
  let common ← readCommon node.common.serial v
  return node.withCommon common

/-- A node with so much room: a part of it takes two of the room, and an item of its lists, or a
part that may be missing, three. -/
def readWithin : Nat → NodeReader
  | room + 3, v => readDescribed (decide (0 < room)) (readWithin (room + 1)) (readWithin room) v
  | _, _ => fail .tooDeep

/-- A node that is inside no other. A level of the value takes three of the room at most, and the
last node, with what it is made of, five or six. -/
def readNode (room : Room) : NodeReader := fun v =>
  readWithin ((room.inside 2).within (3 * v.depth + 3)) v

def readDocument (room : Room) (root : Json) : Reading Document := do
  let node := readNode (room.inside 1)
  let files ← readEach (fun f => do asSourceFile (← node f)) (← items (← required "files" root))
  let types ← readEach node (← optionalItems "deduplicated_types" root)
  return { files, types, size := ← get }

inductive Fault where
  | notJson (text : List Char) (e : Json.Fault)
  | notObject
  | malformed (m : Mismatch)
  deriving DecidableEq

namespace Fault

/-- Whether the fault is one of the document's format, as opposed to one that escapes its reader. -/
def isFormat : Fault → Bool
  | notJson _ e => e.defect.isGrammar
  | notObject => true
  | malformed m => m.isReported

/-- What a fault is called that escapes. -/
def escapedTitle : Fault → String
  | notJson _ ⟨.tooDeep, _⟩ => "RecursionError"
  | malformed m => m.title
  | _ => "ValueError"

def title (e : Fault) : String :=
  if e.isFormat then "DocumentFormatError" else e.escapedTitle

def message : Fault → String
  | notJson text e =>
      if e.defect.isGrammar then "stdump output is not valid JSON: " ++ e.message text
      else e.message text
  | notObject => "stdump output must be a JSON object"
  | malformed m => if m.isReported then "malformed stdump document: " ++ m.report else m.message

def report (e : Fault) : String :=
  if e.message.isEmpty then e.title else e.title ++ ": " ++ e.message

end Fault

/-- The format versions that are known. -/
def isKnownVersion (v : Json) : Bool := v.whole? == some 1 || v.whole? == some 2

def versionWarning? (root : Json) : Option String :=
  match root.field? "version" with
  | none | some .null => none
  | some v =>
      if isKnownVersion v then none
      else some s!"Unknown stdump format version {v.shown}, continuing"

/-- The calls it takes to give a warning. -/
def warningCalls : Nat := 7

/-- The warning of a document, if there is room to show what it is about. -/
def warnings (room : Room) (root : Json) : Except Fault (List String) :=
  match versionWarning? root with
  | none => .ok []
  | some text =>
      let version := (root.field? "version").getD .null
      if room.allows (warningCalls + version.depth) then .ok [text]
      else .error (.malformed .tooDeep)

/-- The warnings of reading a text, which are given even if the document turns out malformed, and
the document. -/
def read (room : Room) (text : List Char) : List String × Except Fault Document :=
  match Json.read (room.inside 5) text with
  | .error e => ([], .error (.notJson text e))
  | .ok root =>
      match root with
      | .object _ =>
          match warnings (room.inside 1) root with
          | .error e => ([], .error e)
          | .ok given =>
              (given,
                match (readDocument (room.inside 1) root).run 0 with
                | .ok (d, _) => .ok d
                | .error m => .error (.malformed m))
      | _ => ([], .error .notObject)

def readBytes (room : Room) (bytes : Text.Bytes) : List String × Except Fault Document :=
  read room (Text.decodeUtf8 bytes)

end StabsImport.Document

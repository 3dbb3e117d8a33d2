import StabsImport.Document.Node
import StabsImport.Text.Numeral

/-!
# Document values

Taking the parts of a JSON value that stands for a node: fields by name, items in turn, numbers,
truth values and the words of a fixed list, each with the ways in which the value may not fit.
-/

namespace StabsImport.Document

inductive Mismatch where
  | missingField (key : String)
  /-- The value is of a kind that cannot be used like this. -/
  | wrongKind
  /-- The value is asked for an optional field and is no object. -/
  | noFields
  | notOneOf (value : Json) (class_ : String)
  | notInteger (text : String) (cause : Text.NumeralFault)
  | notANumber
  | infinite
  | unknownDescriptor (value : Json)
  | unexpectedNode (expected found : String)
  /-- Nodes stand inside one another too deep. -/
  | tooDeep
  deriving DecidableEq

namespace Mismatch

def title : Mismatch → String
  | missingField _ => "KeyError"
  | wrongKind => "TypeError"
  | noFields => "AttributeError"
  | infinite => "OverflowError"
  | tooDeep => "RecursionError"
  | notOneOf .. | notInteger .. | notANumber | unknownDescriptor _ | unexpectedNode .. =>
      "ValueError"

def message : Mismatch → String
  | missingField key => Text.quoted key
  | notOneOf value class_ => s!"{value.shown} is not a valid {class_}"
  | notInteger text cause => cause.message 10 text
  | notANumber => "cannot convert float NaN to integer"
  | unknownDescriptor value => s!"unknown node descriptor {value.shown}"
  | unexpectedNode expected found => s!"expected {expected}, got {found}"
  | wrongKind | noFields | infinite | tooDeep => ""

def report (m : Mismatch) : String :=
  if m.message.isEmpty then m.title else m.title ++ ": " ++ m.message

/-- Whether a reader of documents answers for the mismatch; the others escape it. -/
def isReported : Mismatch → Bool
  | noFields | infinite | tooDeep => false
  | _ => true

end Mismatch

abbrev Taken := Except Mismatch

/-- A field that has to be there. -/
def required (key : String) : Json → Taken Json
  | .object fields =>
      match fields.lookup key with
      | some v => .ok v
      | none => .error (.missingField key)
  | _ => .error .wrongKind

/-- A field that may be missing. -/
def optional (key : String) (missing : Json) : Json → Taken Json
  | .object fields => .ok ((fields.lookup key).getD missing)
  | _ => .error .noFields

/-- The characters of a text and the keys of an object count as items. -/
def items : Json → Taken (List Json)
  | .list xs => .ok xs
  | .text s => .ok ((Text.codes s).map fun n => .text (String.ofList (Text.charsOfCode n)))
  | .object fields => .ok (fields.map fun f => .text f.1)
  | _ => .error .wrongKind

def integer : Json → Taken Int
  | .bool b => .ok b.toInt
  | .int n => .ok n
  | .real .nan => .error .notANumber
  | .real x =>
      match x.truncate? with
      | some n => .ok n
      | none => .error .infinite
  | .text s => (Text.Numeral.read 10 s).mapError (.notInteger s)
  | _ => .error .wrongKind

/-- The member of a list that is written like the value. -/
def oneOf {α : Type} (class_ : String) (all : List α) (text : α → String) (v : Json) : Taken α :=
  match all.find? fun a => v == .text (text a) with
  | some a => .ok a
  | none => .error (.notOneOf v class_)

def storageClass : Json → Taken StorageClass := oneOf "StorageClass" StorageClass.all (·.text)

def variableClass : Json → Taken VariableClass := oneOf "VariableClass" VariableClass.all (·.text)

def storageKind : Json → Taken StorageKind := oneOf "VariableStorageType" StorageKind.all (·.text)

def globalLocation : Json → Taken Section := oneOf "GlobalLocation" Section.all (·.text)

def builtInClass : Json → Taken BuiltInClass := oneOf "BuiltInClass" BuiltInClass.all (·.text)

def optionalInteger (key : String) (missing : Int) (v : Json) : Taken Int := do
  integer (← optional key (.int missing) v)

def optionalFlag (key : String) (missing : Bool) (v : Json) : Taken Bool :=
  (optional key (.bool missing) v).map (·.holds)

/-- The items of a list field; none if the field is missing. -/
def optionalItems (key : String) (v : Json) : Taken (List Json) := do
  items (← optional key (.list []) v)

end StabsImport.Document

import StabsImport.Fault
import StabsImport.Json.Key
import StabsImport.Json.Printer
import StabsImport.Room

/-!
# Type objects

Types are objects with an identity: two equal descriptions may be two objects, and a structure is
filled in after others point to it. An arena holds every object made, an object's number is its
identity, and objects are only ever added. Pointers, arrays and signatures are made after the
types they link to, so those links lead to smaller numbers. Names are values of the document, and
only most of them are texts.
-/

namespace StabsImport

abbrev TypeId := Nat

structure Component where
  offset : Int
  type : TypeId
  length : Int
  /-- Null if it has none. -/
  name : Json
  bitSize : Int := 0
  bitOffset : Int := 0
  deriving DecidableEq, Inhabited

def Component.isBitField (c : Component) : Bool := c.bitSize > 0

def Component.stop (c : Component) : Int := c.offset + c.length

inductive CompositeKind where
  | record
  | union
  deriving DecidableEq, Repr, Inhabited

/-- A structure or union; `size` is the declared size, or more if its members need more. -/
structure Composite where
  kind : CompositeKind
  size : Int
  components : List Component
  deriving DecidableEq, Inhabited

inductive Shape where
  | void
  | undefined (size : Int)
  | builtIn (size : Int) (signed isFloat isBool : Bool)
  | enumeration (size : Int) (values : Ledger Json Int)
  | signature (returns : TypeId) (parameters : List TypeId)
  | composite (c : Composite)
  deriving Inhabited

/-- A pointer and an array take their names from the types they lead to. -/
inductive TypeObject where
  | named (name : Json) (shape : Shape)
  | pointer (target : TypeId) (size : Int)
  | array (element : TypeId) (count : Int)
  deriving Inhabited

namespace TypeObject

def composite? : TypeObject → Option Composite
  | named _ (.composite c) => some c
  | _ => none

/-- The kinds of types as they are called in a summary. -/
def kind : TypeObject → String
  | named _ .void => "VoidDataType"
  | named _ (.undefined _) => "UndefinedDataType"
  | named _ (.builtIn ..) => "BuiltInDataType"
  | named _ (.enumeration ..) => "EnumDataType"
  | named _ (.signature ..) => "FunctionSignatureDataType"
  | named _ (.composite ⟨.record, _, _⟩) => "StructureDataType"
  | named _ (.composite ⟨.union, _, _⟩) => "UnionDataType"
  | pointer .. => "PointerDataType"
  | array .. => "ArrayDataType"

def undefinedOf (size : Int) : TypeObject := named (.text s!"undefined{size}") (.undefined size)

def voidType : TypeObject := named (.text "void") .void

end TypeObject

structure Arena where
  objects : Array TypeObject := #[]
  /-- The room for names made out of names. -/
  room : Room := none
  deriving Inhabited

namespace Arena

def size (a : Arena) : Nat := a.objects.size

def get? (a : Arena) (id : TypeId) : Option TypeObject := a.objects[id]?

def push (a : Arena) (t : TypeObject) : Arena := { a with objects := a.objects.push t }

def set (a : Arena) (id : TypeId) (t : TypeObject) : Arena :=
  { a with objects := a.objects.setIfInBounds id t }

theorem get?_push_self (a : Arena) (t : TypeObject) : (a.push t).get? a.size = some t := by
  simp [get?, push, size]

theorem get?_push_of_lt (a : Arena) (t : TypeObject) {id : TypeId} (h : id < a.size) :
    (a.push t).get? id = a.get? id := by
  have h : id < a.objects.size := h
  simp [get?, push, Array.getElem?_push, Nat.ne_of_lt h]

theorem size_push (a : Arena) (t : TypeObject) : (a.push t).size = a.size + 1 := by
  simp [size, push]

def composite? (a : Arena) (id : TypeId) : Option Composite := (a.get? id).bind (·.composite?)

/-- Follows fewer than `fuel` links. A pointer takes its name from a text only. -/
def nameWithin (a : Arena) : Nat → TypeId → Except Fault Json
  | 0, _ => .error .tooDeep
  | fuel + 1, id =>
      match a.get? id with
      | some (.named name _) => .ok name
      | some (.pointer target _) => do
          match ← a.nameWithin fuel target with
          | .text name => return .text (name ++ " *")
          | _ => throw .wrongKind
      | some (.array element count) => do
          let name ← a.nameWithin fuel element
          return .text s!"{name.plain}[{count}]"
      | none => .ok (.text "")

/-- How many links the room allows for: each takes two calls. -/
def reach (a : Arena) : Option Nat := a.room.map (· / 2)

/-- Links lead to smaller numbers, so there are no more of them than the number. -/
def name (a : Arena) (id : TypeId) : Except Fault Json := a.nameWithin (a.reach.getD (id + 1)) id

/-- A name in a message. -/
def plainName (a : Arena) (id : TypeId) : Except Fault String := (a.name id).map (·.plain)

def lengthWithin (a : Arena) : Nat → TypeId → Int
  | 0, _ => 0
  | fuel + 1, id =>
      match a.get? id with
      | some (.named _ shape) =>
          match shape with
          | .void => 0
          | .undefined size | .builtIn size .. | .enumeration size _ => size
          | .signature .. => 1
          | .composite c => if c.size > 0 then c.size else 1
      | some (.pointer _ size) => size
      | some (.array element count) => a.lengthWithin fuel element * count
      | none => 0

/-- A composite with no size still takes one byte. -/
def length (a : Arena) (id : TypeId) : Int := a.lengthWithin (id + 1) id

def isZeroLength (a : Arena) (id : TypeId) : Bool :=
  match a.composite? id with
  | some c => c.size ≤ 0
  | none => a.length id ≤ 0

/-- What of a component is compared between composites: its type only by name. -/
structure Signature where
  offset : Int
  name : Json
  type : Json
  length : Int
  bitSize : Int
  bitOffset : Int

def Signature.same (s t : Signature) : Bool :=
  s.offset == t.offset && Key.same s.name t.name && Key.same s.type t.type &&
    s.length == t.length && s.bitSize == t.bitSize && s.bitOffset == t.bitOffset

def signature (a : Arena) (c : Component) : Except Fault Signature := do
  return { offset := c.offset, name := c.name, type := ← a.name c.type, length := c.length
           bitSize := c.bitSize, bitOffset := c.bitOffset }

def sameSignatures : List Signature → List Signature → Bool
  | [], [] => true
  | s :: ss, t :: ts => s.same t && sameSignatures ss ts
  | _, _ => false

def sameComponents (a : Arena) (c d : Composite) : Except Fault Bool := do
  let signatures ← c.components.mapM a.signature
  return sameSignatures signatures (← d.components.mapM a.signature)

def sameValues (u v : Ledger Json Int) : Bool :=
  u.entries.length == v.entries.length && u.entries.all fun e => v.get? e.1 == some e.2

def haveEqualNames (a : Arena) (x y : TypeId) : Except Fault Bool := do
  return (← a.name x).isEqual (← a.name y)

/-- Composites are compared by layout and enumerations by value, neither by name; all other types
of one kind by name and length. -/
def isEquivalent (a : Arena) (x y : TypeId) : Except Fault Bool :=
  match a.get? x, a.get? y with
  | some (.named _ (.enumeration size values)), some (.named _ (.enumeration size' values')) =>
      .ok (size == size' && sameValues values values')
  | some (.named _ (.composite c)), some (.named _ (.composite d)) =>
      if c.kind == d.kind && c.size == d.size then a.sameComponents c d else .ok false
  | some t, some u =>
      if t.kind == u.kind then (a.haveEqualNames x y).map (· && a.length x == a.length y)
      else .ok false
  | _, _ => .ok false

/-- Whether a type about to be registered can do with a registered one. A composite without
members is to be filled later, so only its kind and its declared size count. -/
def canReuse (a : Arena) (registered fresh : TypeId) : Except Fault Bool :=
  match a.composite? fresh with
  | some ⟨kind, size, []⟩ =>
      match a.composite? registered with
      | some c => .ok (c.kind == kind && (size == 0 || size == c.size))
      | none => .ok false
  | _ => a.isEquivalent registered fresh

def componentJson (a : Arena) (c : Component) : Except Fault Json := do
  return .object <|
    [("offset", .int c.offset), ("name", c.name), ("type", ← a.name c.type),
      ("length", .int c.length)] ++
    if c.isBitField then [("bit_size", .int c.bitSize), ("bit_offset", .int c.bitOffset)] else []

/-- A name as it stands in JSON text as the key of an object. -/
def keyText : Json → String
  | .text s => s
  | v => v.compact

/-- What else of a type there is in a summary. -/
def contentJson (a : Arena) (keyText : Json → String) :
    TypeObject → Except Fault (List (String × Json))
  | .named _ (.enumeration _ values) =>
      .ok [("values", .object (values.entries.map fun (k, n) => (keyText k, .int n)))]
  | .named _ (.composite c) => do
      return [("components", .list (← c.components.mapM a.componentJson))]
  | _ => .ok []

/-- A type in a summary, its constants under their names in this form. -/
def toJson (a : Arena) (keyText : Json → String) (id : TypeId) : Except Fault Json := do
  let t := (a.get? id).getD default
  let name ← a.name id
  return .object <|
    [("kind", .text t.kind), ("name", name), ("length", .int (a.length id))] ++
      (← a.contentJson keyText t)

/-- A type in a message. -/
def shown (a : Arena) (id : TypeId) : Except Fault String := do
  return s!"<{((a.get? id).getD default).kind} {← a.plainName id}>"

end Arena

end StabsImport

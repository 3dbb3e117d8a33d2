import StabsImport.Program.Basic

/-!
# The types of a program

New types are added to the arena; only some are registered under their names. A registered name is
never given to another type: a different type of that name is renamed, with `.conflict` and a
number after it, which takes a name that is a text.
-/

namespace StabsImport.Program

def newType (t : TypeObject) : Edit TypeId := do
  let p ← get
  set { p with arena := p.arena.push t }
  return p.arena.size

def setType (id : TypeId) (t : TypeObject) : Edit Unit :=
  modify fun p => { p with arena := p.arena.set id t }

/-- The name of a type in a message. -/
def typeName (id : TypeId) : Edit String := view (·.arena.plainName id)

def typeLength (id : TypeId) : Edit Int := return (← get).arena.length id

def newUndefined (size : Int) : Edit TypeId :=
  if size < 1 then reject .undefinedSize else newType (.undefinedOf size)

def newArray (element : TypeId) (count : Int) : Edit TypeId := do
  if (← typeLength element) ≤ 0 then reject (.elementWithoutSize (← typeName element))
  else if count < 0 then reject .negativeCount
  else newType (.array element count)

def newComposite (kind : CompositeKind) (name : Json) (size : Int) : Edit TypeId :=
  newType (.named name (.composite (.empty kind size)))

/-- What has no size cannot be the type of a variable. -/
def sizedType (id : Option TypeId) : Edit TypeId := do
  match id with
  | none => newUndefined 1
  | some id => if (← typeLength id) ≤ 0 then newUndefined 1 else return id

/-- Applies a placement to a composite of the kind that takes it. -/
def editComposite (kind : CompositeKind) (id : TypeId)
    (f : Composite → Except Rejection Composite) : Edit Unit := do
  match (← get).arena.get? id with
  | some (.named name (.composite c)) =>
      if c.kind ≠ kind then throw .noSuchPart
      let c ← ofExcept (f c)
      setType id (.named name (.composite c))
  | _ => throw .noSuchPart

def kindOf? (id : TypeId) : Edit (Option CompositeKind) :=
  return ((← get).arena.composite? id).map (·.kind)

def placeMember (owner : TypeId) (offset : Int) (type : TypeId) (length : Int)
    (name : Json) : Edit Unit :=
  editComposite .record owner (·.placeMember offset type length name)

def placeBits (owner : TypeId) (offset width bitOffset : Int) (type : TypeId) (bitSize : Int)
    (name : Json) : Edit Unit :=
  editComposite .record owner (·.placeBits offset width bitOffset type bitSize name)

def addAlternative (owner type : TypeId) (length : Int) (name : Json) : Edit Unit :=
  editComposite .union owner (·.addAlternative type length name)

def conflictName (name : String) : Nat → String
  | 0 => name ++ ".conflict"
  | n + 1 => s!"{name}.conflict{n + 1}"

/-- What a search for a place in the registry ends with. -/
inductive Place where
  | taken (by_ : TypeId)
  | free (name : Json)
  deriving DecidableEq

/-- Tries the names of conflicts from the `n`th on. -/
def conflictPlace (p : Program) (fresh : TypeId) (name : String) :
    Nat → Nat → Except Fault Place
  | 0, n => .ok (.free (.text (conflictName name n)))
  | fuel + 1, n =>
      let candidate := Json.text (conflictName name n)
      match p.registry.get? candidate with
      | none => .ok (.free candidate)
      | some id => do
          if ← p.arena.canReuse id fresh then return .taken id
          else p.conflictPlace fresh name fuel (n + 1)

/-- There are as many names to try as the registry has entries, and one more. -/
def placeAmongConflicts (p : Program) (fresh : TypeId) (name : Json) : Except Fault Place :=
  match name with
  | .text name => p.conflictPlace fresh name p.registry.entries.length 0
  | _ => .error .wrongKind

def place (p : Program) (fresh : TypeId) (name : Json) : Except Fault Place :=
  if !name.isKey then .error .wrongKind
  else
    match p.registry.get? name with
    | none => .ok (.free name)
    | some id => do
        if id = fresh then return .free name
        else if ← p.arena.canReuse id fresh then return .taken id
        else p.placeAmongConflicts fresh name

/-- A type whose name is derived from another type's cannot be renamed. -/
def rename (id : TypeId) (name : Json) : Edit Unit := do
  match (← get).arena.get? id with
  | some (.named _ shape) => setType id (.named name shape)
  | _ => throw .noSuchPart

/-- Registers a type, or finds a registered one that will do. -/
def addType (id : TypeId) : Edit TypeId := do
  let name ← view (·.arena.name id)
  match ← view (·.place id name) with
  | .taken other => return other
  | .free free =>
      if free ≠ name then rename id free
      modify fun p => { p with registry := p.registry.put free id }
      return id

def type? (p : Program) (name : Json) : Option TypeId := p.registry.get? name

end StabsImport.Program

import StabsImport.Program.Symbols

/-!
# Functions

Each function is stored under its entry point and has a symbol there that carries its name. Bodies
do not overlap. Parameters are replaced as a whole, their storage assigned anew; a local takes the
place of another at its stack offset.
-/

namespace StabsImport.Program

def function? (p : Program) (entry : Int) : Option Function := p.functions.get? entry

def functionContaining? (p : Program) (address : Int) : Option Function :=
  p.functions.values.find? (·.contains address)

def bodiesMeet (low : Whole) (high : Bound) (f : Function) : Bool :=
  f.low.le high && (Bound.whole low).le f.high

/-- A body that does not hold its entry point is refused; its message needs whole numbers. -/
def badBody (low : Whole) (high : Bound) (entry : Whole) : Fault :=
  match high with
  | .whole high => .rejected (.badBody low.value high.value entry.value)
  | .real _ => .wrongKind

def setFunction (f : Function) : Edit Unit :=
  modify fun p => { p with functions := p.functions.put f.entry.value f }

def editFunction (entry : Int) (f : Function → Function) : Edit Unit :=
  modify fun p => { p with functions := p.functions.update entry f }

/-- Names the function's symbol, adding one if there is none. -/
def nameFunctionSymbol (address : Whole) (name : String) (source : SourceKind)
    (symbols : List Symbol) : List Symbol :=
  match symbols.findIdx? (·.kind == .function) with
  | some index => symbols.modify index fun s => { s with name, source }
  | none => withSymbol symbols { address, name, kind := .function, source, primary := true }

def isLabelNamed (name : String) (s : Symbol) : Bool := s.kind == .label && s.name == name

/-- Renames a function. Labels of that name at its entry point are absorbed. -/
def renameFunction (entry : Int) (name : Json) (source : SourceKind) : Edit Unit := do
  let name ← ofResult (checkName name)
  let address := ((← get).function? entry).elim (.ofInt entry) (·.entry)
  modify fun p =>
    let symbols := (p.symbolsAt entry).filter (!isLabelNamed name ·)
    p.setSymbols address (nameFunctionSymbol address name source symbols)
  editFunction entry ({ · with name })

/-- A function is made under its default name before it gets its own. -/
def createFunction (name : Json) (entry : Whole) (body : Option (Whole × Bound))
    (source : SourceKind) : Edit Unit := do
  let (low, high) := body.getD (entry, .whole entry)
  if high.lt (.whole low) || !((Bound.whole low).le (.whole entry) && (Bound.whole entry).le high)
  then throw (badBody low high entry)
  else if (← get).functions.contains entry.value then reject (.functionExists entry.value)
  else
    let default := defaultName entry.value
    match (← get).functions.values.find? (bodiesMeet low high) with
    | some other => reject (.bodyOverlap (if name.holds then name.plain else default) other.name)
    | none =>
        setFunction { name := default, entry, body := (low, high) }
        addSymbol
          { address := entry, name := default, kind := .function, source := .default,
            primary := true }
        if name.holds then renameFunction entry.value name source

def setFunctionComment (entry : Int) (comment : Json) : Edit Unit :=
  editFunction entry ({ · with comment })

def setReturnType (entry : Int) (type : Option TypeId) : Edit Unit := do
  match type with
  | none => reject (.noReturnType (((← get).function? entry).elim "" (·.name)))
  | some type => editFunction entry ({ · with returnType := some type })

/-- A name with ink in it. -/
def inkedName (unnamed : Rejection) (name : Json) : Except Fault String :=
  match name with
  | .text name => if Text.isBlankText name then .error (.rejected unnamed) else .ok name
  | name => .error (if name.holds then .noSuchPart else .rejected unnamed)

/-- Each parameter has a name, and none the name of one before it. -/
def namedParameters (function : String) :
    (seen : List String) → List (Json × TypeId) → Except Fault (List Parameter)
  | _, [] => .ok []
  | seen, (name, type) :: rest => do
      let name ← inkedName (.unnamedParameter function) name
      if seen.contains name then throw (.rejected (.repeatedParameter name function))
      return { name, type } :: (← namedParameters function (name :: seen) rest)

def placeParameters (parameters : List Parameter) (storage : List String) : List Parameter :=
  (parameters.zip storage).mapIdx fun ordinal (q, slot) => { q with ordinal, storage := slot }

/-- Locals named like a parameter would hide it, so they are dropped. -/
def replaceParameters (entry : Int) (parameters : List (Json × TypeId)) : Edit Unit := do
  let p ← get
  let function := (p.function? entry).elim "" (·.name)
  let parameters ← ofResult (namedParameters function [] parameters)
  let storage ← view (·.convention.assignStorage (parameters.map fun q => p.arena.length q.type))
  let names := parameters.map (·.name)
  editFunction entry fun f =>
    { f with
      parameters := placeParameters parameters storage
      locals := f.locals.filter fun v => !names.contains v.name }

def insertLocal (v : LocalVariable) : List LocalVariable → List LocalVariable
  | [] => [v]
  | w :: rest =>
      if v.stackOffset < w.stackOffset then v :: w :: rest else w :: insertLocal v rest

def checkLocal (f : Function) (v : LocalVariable) : Except Rejection Unit :=
  if f.parameters.any (·.name == v.name) then .error (.localNamedAsParameter v.name f.name)
  else
    match f.locals.find? fun w => w.name == v.name && w.stackOffset != v.stackOffset with
    | some w => .error (.localElsewhere v.name f.name w.stackOffset)
    | none => .ok ()

/-- A local takes the place of any other with its name or its stack offset. -/
def addLocal (entry : Int) (name : Json) (type : TypeId) (stackOffset : Int) : Edit Unit := do
  match (← get).function? entry with
  | none => pure ()
  | some f =>
      let name ← ofResult (inkedName (.unnamedLocal f.name) name)
      let v : LocalVariable := { name, type, stackOffset }
      ofExcept (checkLocal f v)
      let kept := f.locals.filter fun w => w.name != v.name && w.stackOffset != v.stackOffset
      setFunction { f with locals := insertLocal v kept }

end StabsImport.Program

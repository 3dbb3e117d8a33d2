import StabsImport.Import.Session

/-!
# Resolving types

A node of the document becomes a type object. References lead to entries of the document's table,
each of which is made once. Structures and unions may refer to each other in circles: their
objects are entered into the table before their members are resolved. Any other circle is cut
where an entry is reached that is in the course of resolution, so the recursion descends either
into a node or into an entry not yet open.
-/

namespace StabsImport.Import

open Document (Node Base Variable BuiltInClass TypeReference)

def typesSource : String := "types"

def functionsSource : String := "functions"

def globalsSource : String := "globals"

/-- The size of every enumeration. -/
def enumerationSize : Int := 4

/-- What is made for a built-in class. -/
def builtInType : BuiltInClass → TypeObject
  | .void => .voidType
  | .unsigned8 => .named (.text "uchar") (.builtIn 1 false false false)
  | .signed8 => .named (.text "schar") (.builtIn 1 true false false)
  | .unqualified8 => .named (.text "char") (.builtIn 1 true false false)
  | .bool8 => .named (.text "bool") (.builtIn 1 false false true)
  | .unsigned16 => .named (.text "ushort") (.builtIn 2 false false false)
  | .signed16 => .named (.text "short") (.builtIn 2 true false false)
  | .unsigned32 => .named (.text "uint") (.builtIn 4 false false false)
  | .signed32 => .named (.text "int") (.builtIn 4 true false false)
  | .float32 => .named (.text "float") (.builtIn 4 true true false)
  | .unsigned64 => .named (.text "ulonglong") (.builtIn 8 false false false)
  | .signed64 => .named (.text "longlong") (.builtIn 8 true false false)
  | .float64 => .named (.text "double") (.builtIn 8 true true false)
  | .unsigned128 => .named (.text "uint128") (.builtIn 16 false false false)
  | .signed128 => .named (.text "int128") (.builtIn 16 true false false)
  | .float128 => .named (.text "float128") (.builtIn 16 true true false)
  | .unqualified128 => .undefinedOf 16
  | .unknown => .undefinedOf 1

def undefined1 : ImportM TypeId := edit (Program.newUndefined 1)

def builtIn (c : BuiltInClass) : ImportM TypeId := do
  need 3
  match (← get).cache.builtIns.get? c with
  | some id => return id
  | none =>
      let id ← edit (Program.newType (builtInType c))
      modify fun s => { s with cache.builtIns := s.cache.builtIns.put c id }
      return id

/-- The one pointer type of the program's pointer size that leads to a type. -/
def pointerTo (target : TypeId) : ImportM TypeId := do
  need 3
  let size ← pointerSize
  match (← get).cache.pointers.get? (target, size) with
  | some id => return id
  | none =>
      let id ← edit (Program.newType (.pointer target size))
      modify fun s => { s with cache.pointers := s.cache.pointers.put (target, size) id }
      return id

/-- The one array type of a count of elements; an element without a size is replaced. -/
def arrayOf (element : TypeId) (count : Int) : ImportM TypeId := do
  need 3
  let element ← edit (Program.sizedType (some element))
  match (← get).cache.arrays.get? (element, count) with
  | some id => return id
  | none =>
      let id ← edit (Program.newArray element count)
      modify fun s => { s with cache.arrays := s.cache.arrays.put (element, count) id }
      return id

def cached? (serial : Nat) : ImportM (Option TypeId) := return (← get).cache.nodes.get? serial

def cacheNode (serial : Nat) (id : TypeId) : ImportM Unit :=
  modify fun s => { s with cache.nodes := s.cache.nodes.put serial id }

/-- A name as given, else the hint, else the last resort. -/
def nameOr (name hint : Json) (otherwise : String) : Json :=
  if name.holds then name else if hint.holds then hint else .text otherwise

def entryName (n : Node) (index : Nat) : Json := nameOr n.name .null s!"__anon_type_{index}"

def fieldName (n : Node) (index : Nat) : Json := nameOr n.name .null s!"field_{index}"

/-- Enters constants in turn; one whose name is taken is reported and left out. -/
def addConstants (type : Json) : Ledger Json Int → List (Int × Json) → ImportM (Ledger Json Int)
  | values, [] => return values
  | values, (value, name) :: rest => do
      if !name.isKey then throw .wrongKind
      if values.contains name then
        let cause := Rejection.repeatedConstant name.plain
        diagnose typesSource s!"Skipping constant of enum {type.plain}: {cause.message}"
        addConstants type values rest
      else addConstants type (values.put name value) rest

def newEnumeration (name : Json) (constants : List (Int × Json)) : ImportM TypeId := do
  need 3
  let values ← addConstants name {} constants
  edit (Program.newType (.named name (.enumeration enumerationSize values)))

/-- The bytes a number of bits declares. -/
def declaredBytes (bits : Int) : Int := if bits > 0 then bits / 8 else 0

/-- A composite of the declared size with no members. -/
def newShell (isRecord : Bool) (sizeBits : Int) (name : Json) : ImportM TypeId := do
  need 3
  edit (Program.newComposite (if isRecord then .record else .union) name (declaredBytes sizeBits))

def typeName (id : TypeId) : ImportM String := edit (Program.typeName id)

def typeLength (id : TypeId) : ImportM Int := edit (Program.typeLength id)

def isVoid (id : TypeId) : ImportM Bool :=
  return match (← get).program.arena.get? id with
    | some (.named _ .void) => true
    | _ => false

/-- The last entry of a name wins. -/
def entryNamed? (d : Document) (name : Json) : Option Nat :=
  if !name.holds then none
  else
    let matching := d.types.zipIdx.filter fun (n, _) => Key.same n.name name
    matching.getLast?.map (·.2)

/-- The named entries: the last of each name, under the first spelling of it. -/
def namedEntries (d : Document) : Ledger Json Nat :=
  d.types.zipIdx.foldl (fun l (n, index) => if n.name.holds then l.put n.name index else l) {}

/-- The index a file gives a type number. -/
def entryNumbered? (d : Document) (r : TypeReference) : Option Int := do
  let number ← r.number
  if r.fileIndex < 0 then none
  else
    let file ← d.files[r.fileIndex.toNat]?
    file.typeNumbers.get? (number.file, number.type.value)

/-- The entry a reference leads to: by number in its file, else by name. -/
def entryOf? (d : Document) (r : TypeReference) : Option Int :=
  (entryNumbered? d r).or ((entryNamed? d r.typeName).map Int.ofNat)

def lookUp (r : TypeReference) : ImportM (Option Int) := do
  prepare
  let d := (← get).document
  if (entryNumbered? d r).isNone && !r.typeName.isKey && r.typeName.holds then throw .wrongKind
  return entryOf? d r

/-- The entry a node refers to. Only a type name refers to any. -/
def lookUpNode (node : Option Node) : ImportM (Option Int) := do
  prepare
  match node with
  | some (.typeName _ r) => lookUp r
  | _ => throw .noSuchPart

/-- A reference, its entry reached by `enter`. -/
def resolveReference (enter : Int → ImportM TypeId) (r : TypeReference) : ImportM TypeId := do
  if r.typeName = .text "void" && r.number.isNone then builtIn .void
  else
    need 2
    match ← lookUp r with
    | some index => enter index
    | none =>
        let shown := if r.typeName.holds then r.typeName.plain else "<unnamed>"
        diagnose typesSource ("Failed to lookup type: " ++ shown)
        undefined1

/-- Puts a member into a composite at the offset given, with the size its type has now. -/
def placeField (shell : TypeId) (field : Node) (name : Json) (type : TypeId) : ImportM Unit := do
  let type ← if ← isVoid type then undefined1 else pure type
  let p := (← get).program
  let length :=
    if p.arena.isZeroLength type && field.sizeBits > 0 then field.sizeBits / 8
    else p.arena.length type
  if length ≤ 0 then throw (.rejected (.typeWithoutSize (← typeName type)))
  match ← edit (Program.kindOf? shell) with
  | some .record => edit (Program.placeMember shell (max field.relativeOffset 0) type length name)
  | _ => edit (Program.addAlternative shell type length name)

/-- A bit field of a union is a member of its underlying type. -/
def placeBitField (shell : TypeId) (field : Node) (offsetBits : Int) (name : Json)
    (underlying : TypeId) : ImportM Unit := do
  let underlying ← edit (Program.sizedType (some underlying))
  let length ← typeLength underlying
  match ← edit (Program.kindOf? shell) with
  | some .record =>
      edit (Program.placeBits shell (max field.relativeOffset 0) length offsetBits underlying
        field.sizeBits name)
  | _ => edit (Program.addAlternative shell underlying length name)

def placeBase (shell : TypeId) (index : Nat) (offset : Int) (type : TypeId) : ImportM Unit := do
  edit (Program.placeMember shell offset type (← typeLength type)
    (.text s!"base_{index}"))

def reportBase (shell : TypeId) (index : Nat) (e : Fault) : ImportM Unit := do
  diagnose typesSource
    s!"Failed to add base class {index} to {← typeName shell}: {e.message}"

def reportField (shell : TypeId) (name : Json) (e : Fault) : ImportM Unit := do
  diagnose typesSource s!"Failed to add field {name.plain} to {← typeName shell}: {e.message}"

/-- A variable needs a size, so what cannot be built, or has none, is replaced. -/
def variableType (type : ImportM TypeId) : ImportM TypeId :=
  onTypeFault (do edit (Program.sizedType (some (← type)))) fun e => do
    diagnose typesSource ("Failed to create type: " ++ e.message)
    undefined1

def newSignature (name : Json) (returns : TypeId) (parameters : List TypeId) :
    ImportM TypeId := do
  need 2
  edit (Program.newType (.named name (.signature returns parameters)))

mutual

/-- The type a node describes. A member without a name is named by the hint. -/
def createType (enter : Int → ImportM TypeId) : Node → Json → ImportM TypeId
  | .typeName _ r, _ => inside 2 (resolveReference enter r)
  | .builtIn _ c, _ => inside 1 (builtIn c)
  | .pointer _ _ target, _ => inside 1 do pointerTo (← createType enter target .null)
  | .array _ element count, _ => inside 1 do arrayOf (← createType enter element .null) count
  | .bitField _ _ underlying, _ => inside 1 (createType enter underlying .null)
  | .memberPointer .., _ => inside 1 do
      need 2
      edit (Program.newUndefined (← pointerSize))
  | .functionType ⟨c, returnType, parameters, _, _, _⟩, hint => inside 2 do
      match ← cached? c.serial with
      | some id => return id
      | none =>
          let returns ←
            match returnType with
            | some node => createType enter node .null
            | none => builtIn .void
          let parameters ←
            match parameters with
            | some formals => inside 2 (parameterTypes enter formals)
            | none => pure []
          let id ← newSignature (nameOr c.name hint "__anon_function") returns parameters
          cacheNode c.serial id
          return id
  | .enumeration c constants, hint => inside 1 do
      match ← cached? c.serial with
      | some id => return id
      | none =>
          let id ← newEnumeration (nameOr c.name hint "__anon_enum") constants
          cacheNode c.serial id
          return id
  | .composite c isRecord bases fields _, hint => inside 1 do
      match ← cached? c.serial with
      | some id => return id
      | none =>
          let shell ← newShell isRecord c.sizeBits (nameOr c.name hint "__anon_struct")
          cacheNode c.serial shell
          inside 1 do
            if isRecord then fillBases enter shell 0 bases
            fillFields enter shell 0 fields
          return shell
  | .variable_ _, _ => throw (.notAType "Variable")
  | .functionDefinition _, _ => throw (.notAType "FunctionDefinition")
  | .sourceFile _, _ => throw (.notAType "SourceFile")

def parameterTypes (enter : Int → ImportM TypeId) : List Variable → ImportM (List TypeId)
  | [] => return []
  | ⟨_, _, _, type⟩ :: rest => do
      return (← variableType (createType enter type .null)) :: (← parameterTypes enter rest)

/-- Places the base classes from an index on; one that cannot be placed is reported. -/
def fillBases (enter : Int → ImportM TypeId) (shell : TypeId) : Nat → List Base → ImportM Unit
  | _, [] => return
  | index, ⟨_, _, offset, type⟩ :: rest => do
      onTypeFault (do placeBase shell index offset (← createType enter type .null))
        (reportBase shell index)
      fillBases enter shell (index + 1) rest

/-- Places the fields from an index on; one that cannot be placed is reported. A composite inside
another is named after both. -/
def fillFields (enter : Int → ImportM TypeId) (shell : TypeId) : Nat → List Node → ImportM Unit
  | _, [] => return
  | index, .bitField c offsetBits underlying :: rest => do
      let field := Node.bitField c offsetBits underlying
      let name := fieldName field index
      onTypeFault
        (inside 2 do
          placeBitField shell field offsetBits name (← createType enter underlying .null))
        (reportField shell name)
      fillFields enter shell (index + 1) rest
  | index, field :: rest => do
      let name := fieldName field index
      onTypeFault
        (inside 1 do
          let hint := s!"{← typeName shell}__{name.plain}"
          placeField shell field name (← createType enter field (.text hint)))
        (reportField shell name)
      fillFields enter shell (index + 1) rest

end

theorem createType_typeName (enter : Int → ImportM TypeId) (c : Document.Common)
    (r : TypeReference) (hint : Json) :
    createType enter (.typeName c r) hint = inside 2 (resolveReference enter r) := by
  rw [createType]

theorem parameterTypes_nil (enter : Int → ImportM TypeId) :
    parameterTypes enter [] = pure [] := by
  rw [parameterTypes]

theorem fillBases_nil (enter : Int → ImportM TypeId) (shell : TypeId) (index : Nat) :
    fillBases enter shell index [] = pure () := by
  rw [fillBases]

theorem fillFields_nil (enter : Int → ImportM TypeId) (shell : TypeId) (index : Nat) :
    fillFields enter shell index [] = pure () := by
  rw [fillFields]

/-- Puts the members of a node into a shell made for it, or found for it in the program. -/
def fill (enter : Int → ImportM TypeId) (shell : TypeId) (isRecord : Bool) (bases : List Base)
    (fields : List Node) : ImportM Unit := inside 1 do
  if isRecord then fillBases enter shell 0 bases
  fillFields enter shell 0 fields

/-- What is known of an entry without resolving it: nothing if it is out of range, what the table
holds, and nothing again if it is open. -/
def knownEntry? (opened : List Nat) (index : Int) : ImportM (Option TypeId) := do
  prepare
  let table := (← get).table
  if index < 0 || (table.size : Int) ≤ index then
    diagnose typesSource s!"Type index {index} out of range"
    return some (← undefined1)
  else
    match table[index.toNat]? with
    | some (some id) => return some id
    | _ =>
        if opened.contains index.toNat then
          diagnose typesSource s!"Type {index} refers to itself, using undefined1"
          return some (← undefined1)
        else return none

/-- Resolves an entry of the table, which takes what it finds for it. -/
def resolveEntry (enter : Int → ImportM TypeId) (index : Nat) (node : Node) : ImportM TypeId := do
  let name := entryName node index
  match node with
  | .composite c isRecord bases fields _ =>
      let shell ← newShell isRecord c.sizeBits name
      let shell ← edit (Program.addType shell)
      setEntry index shell
      fill enter shell isRecord bases fields
      return shell
  | _ =>
      let type : ImportM TypeId :=
        match node with
        | .enumeration _ constants => do edit (Program.addType (← newEnumeration name constants))
        | _ => createType enter node name
      let id ← onTypeFault type fun e => do
        diagnose typesSource s!"Failed to create type {name.plain}: {e.message}"
        undefined1
      setEntry index id
      return id

/-- The type of an entry, while `opened` are in the course of resolution and so many entries may
still be opened. -/
def typeAtWithin : Nat → List Nat → Int → ImportM TypeId
  | 0, opened, index => inside 1 do
      match ← knownEntry? opened index with
      | some id => return id
      | none => throw .tooDeep
  | budget + 1, opened, index => inside 1 do
      match ← knownEntry? opened index with
      | some id => return id
      | none =>
          match (← get).document.types[index.toNat]? with
          | some node =>
              resolveEntry (typeAtWithin budget (index.toNat :: opened)) index.toNat node
          | none => throw .tooDeep

/-- The type of an entry of the table, made at most once. Every entry can be opened once. -/
def typeAt (index : Int) : ImportM TypeId := do
  typeAtWithin (← get).document.types.length [] index

/-- The type a node describes. -/
def typeOf (node : Node) (hint : Json) : ImportM TypeId := createType typeAt node hint

def optionalTypeOf (node : Option Node) (hint : Json) : ImportM TypeId :=
  match node with
  | some node => typeOf node hint
  | none => throw .missingType

/-- The type of a parameter, local or global. -/
def variableTypeOf (node : Option Node) : ImportM TypeId := variableType (optionalTypeOf node .null)

end StabsImport.Import

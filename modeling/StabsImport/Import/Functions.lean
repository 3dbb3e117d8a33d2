import StabsImport.Import.Resolve

/-!
# The function stage

Every definition with an address range makes a function at its low address, or updates the one
that is there: name, return type, parameters, comments and locals. What the program refuses is
reported, and the work goes on with the next item.
-/

namespace StabsImport.Import

open Document (FunctionDefinition SourceFile Variable)

/-- Labels that old compilers put at the start of every file, and so on its first function. -/
def noiseLabels : List String := ["__gnu_compiled_cplusplus", "gcc2_compiled."]

def count (f : Stats → Stats) : ImportM Unit := modify fun s => { s with stats := f s.stats }

def reportFault (source : String) (e : Fault) : ImportM Unit := diagnose source e.report

/-- A range is complete if both its ends are given. -/
def isComplete (d : FunctionDefinition) : Bool := d.low ≠ .null && d.high ≠ .null

/-- The numbers of a range, the last address in place of the end. -/
def bodyOf (d : FunctionDefinition) : Except Fault (Bound × Bound) :=
  match Bound.ofJson? d.low, Bound.ofJson? d.high with
  | some low, some high => .ok (low, high.pred)
  | _, _ => .error .wrongKind

/-- Makes a function, under its name unless the range is empty. -/
def makeFunction (d : FunctionDefinition) (low : Whole) (last : Bound) : ImportM Unit :=
  edit <|
    if last.lt (.whole low) then Program.createFunction .null low none .analysis
    else Program.createFunction d.common.name low (some (low, last)) .analysis

/-- A function cannot start between two addresses; the overlap with another body is noticed
before that. -/
def refuseFraction (d : FunctionDefinition) (low : Binary64) (last : Bound) : ImportM Unit := do
  let functions := (← get).program.functions.values
  let meets (f : Function) : Bool := f.low.le last && (Bound.real low).le f.high
  if last.lt (.real low) || low == .nan || last == .real .nan then throw .wrongKind
  else
    match functions.find? meets with
    | some other =>
        if d.common.name = .null then throw .wrongKind
        else throw (.rejected (.bodyOverlap d.common.name.plain other.name))
    | none => throw .wrongKind

/-- The entry of the function at a low address, made if there is none. -/
def findOrMake (d : FunctionDefinition) (low last : Bound) : ImportM (Option Int) := do
  let there : ImportM (Option Int) := do
    let p := (← get).program
    return low.whole?.filter fun entry => p.functions.contains entry
  match ← there with
  | some entry => return some entry
  | none =>
      let make :=
        match low with
        | .whole low => makeFunction d low last
        | .real x => refuseFraction d x last
      onRejection make fun e =>
        diagnose functionsSource
          s!"Failed to create function {d.common.name.plain}: {e.message}"
      there

/-- Whether a symbol is in the way of a function of this name. -/
def isStale (name : Json) (s : Symbol) : Bool :=
  noiseLabels.contains s.name || name = .text s.name

/-- Removes a symbol of an earlier list, if it is still there. -/
def dropSymbol (entry : Int) (s : Symbol) : Edit Unit := do
  match ((← get).symbolsAt entry).findIdx? (· == s) with
  | some index => Program.removeSymbolAt entry index
  | none => pure ()

def dropStale (entry : Int) (name : Json) : List Symbol → Edit Unit
  | [] => pure ()
  | s :: rest => do
      if isStale name s then dropSymbol entry s
      dropStale entry name rest

/-- Names the function, after the labels in the way are gone. -/
def nameFunction (entry : Int) (d : FunctionDefinition) (file : SourceFile) : ImportM Unit := do
  let name := d.common.name
  edit do dropStale entry name ((← get).symbolsAt entry)
  onRejection (edit (Program.renameFunction entry name .analysis)) (reportFault functionsSource)
  edit (Program.setFunctionComment entry file.path)

def setReturnType (entry : Int) (d : FunctionDefinition) : ImportM Unit := do
  match d.type.returnType with
  | none => pure ()
  | some node =>
      onTypeFault (do edit (Program.setReturnType entry (some (← inside 1 (typeOf node .null)))))
        (reportFault functionsSource)

def parametersOf : List Variable → ImportM (List (Json × TypeId))
  | [] => return []
  | v :: rest => do
      let type ← inside 3 (variableTypeOf (some v.type))
      let type ← if v.storage.isByReference then pointerTo type else pure type
      if !v.common.name.isKey then throw .wrongKind
      return (v.common.name, type) :: (← parametersOf rest)

def parameterNames (d : FunctionDefinition) : List Json :=
  ((d.type.parameters.getD []).map (·.common.name)).filter (· ≠ .null)

/-- Replaces the parameters, if any are declared. -/
def setParameters (entry : Int) (d : FunctionDefinition) : ImportM Unit := do
  let declared := d.type.parameters.getD []
  if declared.isEmpty then return
  let parameters ← parametersOf declared
  onRejection
    (do
      edit (Program.replaceParameters entry parameters)
      count fun t => { t with parameters := t.parameters + parameters.length })
    fun e => diagnose functionsSource
      s!"Failed to setup parameters for {d.common.name.plain}: {e.message}"

def setLineComments (d : FunctionDefinition) : ImportM Unit := do
  edit (d.lineNumbers.forM fun l => Program.setComment l.address .eol (some s!"Line {l.line}"))
  count fun t => { t with lineComments := t.lineComments + d.lineNumbers.length }

def markInlined (d : FunctionDefinition) (file : SourceFile) : ImportM Unit := do
  let boundaries := inlineBoundaries (primaryPath d.relativePath file.relativePath) d.breadcrumbs
  edit (boundaries.forM fun b => Program.setComment b.address .pre (some b.comment))
  count fun t => { t with inlineBoundaries := t.inlineBoundaries + boundaries.length }

/-- Whether a variable is one of the function's locals on the stack. -/
def isStackLocal (parameters : List Json) (v : Variable) : Bool :=
  v.common.name.holds && !parameters.any (Key.same v.common.name) &&
    v.common.storageClass ≠ .static && v.storage.kind = .stack

/-- The stack locals by name, beside parameters of these names: the last of a name, at the place of
the first. -/
def stackLocalsBeside (parameters : List Json) (d : FunctionDefinition) : Ledger Json Variable :=
  (d.locals.filter (isStackLocal parameters)).foldl (fun l v => l.put v.common.name v) {}

def stackLocals (d : FunctionDefinition) : Ledger Json Variable :=
  stackLocalsBeside (parameterNames d) d

def addLocals (entry : Int) : List (Json × Variable) → ImportM Unit
  | [] => return
  | (name, v) :: rest => do
      let type ← inside 3 (variableTypeOf (some v.type))
      onRejection
        (do
          edit (Program.addLocal entry name type v.storage.stackOffset)
          count fun t => { t with locals := t.locals + 1 })
        (reportFault functionsSource)
      addLocals entry rest

def setLocalsBeside (parameters : List Json) (entry : Int) (d : FunctionDefinition) :
    ImportM Unit := do
  if d.locals.any fun v => !v.common.name.isKey then throw .wrongKind
  addLocals entry (stackLocalsBeside parameters d).entries

def setLocals (entry : Int) (d : FunctionDefinition) : ImportM Unit :=
  setLocalsBeside (parameterNames d) entry d

/-- Makes or updates the function of a definition; whether there is one afterwards. -/
def importFunction (d : FunctionDefinition) (file : SourceFile) : ImportM Bool := do
  let (low, last) ← (match bodyOf d with
    | .ok body => pure body
    | .error e => throw e : ImportM (Bound × Bound))
  match ← findOrMake d low last with
  | none => return false
  | some entry =>
      nameFunction entry d file
      setReturnType entry d
      setParameters entry d
      if (← get).outputLines then setLineComments d
      if (← get).markInlined then markInlined d file
      setLocals entry d
      return true

def skipped : ImportM Unit := count fun t => { t with skippedFunctions := t.skippedFunctions + 1 }

/-- The definitions of all files, each with its file. -/
def definitions (d : Document) : List (FunctionDefinition × SourceFile) :=
  d.files.flatMap fun file => file.functions.map (·, file)

def importFunctionsFrom : List (FunctionDefinition × SourceFile) → ImportM Unit
  | [] => return
  | (d, file) :: rest => do
      if ← isCancelled then return
      if !isComplete d then skipped
      else if ← importFunction d file then count fun t => { t with functions := t.functions + 1 }
      else skipped
      importFunctionsFrom rest

def importFunctions : ImportM Unit := do
  prepare
  importFunctionsFrom (definitions (← get).document)

end StabsImport.Import

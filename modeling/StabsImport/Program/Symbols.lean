import StabsImport.Program.Basic

/-!
# Symbols

Labels and function names at addresses. A primary symbol takes the flag from the others at its
address. Function names cannot be removed: they fall back to the default name.
-/

namespace StabsImport.Program

def symbolsAt (p : Program) (address : Int) : List Symbol :=
  (p.symbols.get? (.ofInt address)).getD []

/-- The spelling of an address is that of the first symbol there. -/
def setSymbols (p : Program) (address : Whole) (symbols : List Symbol) : Program :=
  { p with symbols :=
      if symbols.isEmpty then p.symbols.remove address else p.symbols.put address symbols }

theorem symbolsAt_setSymbols_self (p : Program) (address : Whole) (symbols : List Symbol) :
    (p.setSymbols address symbols).symbolsAt address.value = symbols := by
  have h : Key.same address (.ofInt address.value) = true := by simp
  cases symbols with
  | nil => simp [setSymbols, symbolsAt, Ledger.get?_remove_of_same _ h]
  | cons s rest => simp [setSymbols, symbolsAt, Ledger.get?_put_of_same _ _ h]

theorem symbolsAt_setSymbols_of_ne (p : Program) {address : Whole} {other : Int}
    (symbols : List Symbol) (h : other ≠ address.value) :
    (p.setSymbols address symbols).symbolsAt other = p.symbolsAt other := by
  have h : Key.same (Whole.ofInt other) address = false := decide_eq_false h
  cases symbols with
  | nil => simp [setSymbols, symbolsAt, Ledger.get?_remove_of_not_same _ h]
  | cons s rest => simp [setSymbols, symbolsAt, Ledger.get?_put_of_not_same _ _ h]

/-- A name has some ink and no white space. What is neither a text nor as good as none cannot even
be checked. -/
def checkName (name : Json) : Except Fault String :=
  match name with
  | .text name =>
      if Text.isBlankText name then .error (.rejected .emptyName)
      else if Text.hasBlank name then .error (.rejected (.blankInName name))
      else .ok name
  | name => .error (if name.holds then .noSuchPart else .rejected .emptyName)

def withSymbol (symbols : List Symbol) (s : Symbol) : List Symbol :=
  (if s.primary then symbols.map fun other => { other with primary := false } else symbols) ++ [s]

def addSymbol (s : Symbol) : Edit Unit :=
  modify fun p => p.setSymbols s.address (withSymbol (p.symbolsAt s.address.value) s)

/-- The function at an address falls back to its default name. -/
def resetFunctionName (p : Program) (address : Int) : Program :=
  { p with functions :=
      p.functions.update address fun f => { f with name := defaultName address } }

/-- The default symbol in place of a function's. -/
def defaultSymbol (address : Int) (s : Symbol) : Symbol :=
  { s with name := defaultName address, source := .default }

/-- Without the first symbol that is the same as this one. -/
def withoutSymbol (symbols : List Symbol) (s : Symbol) : List Symbol := symbols.eraseP (·.same s)

/-- Removes the symbol at a place in the list of its address. -/
def removeSymbolAt (address : Int) (index : Nat) : Edit Unit :=
  modify fun p =>
    let symbols := p.symbolsAt address
    match symbols[index]? with
    | none => p
    | some s =>
        match s.kind with
        | .label => p.setSymbols s.address (withoutSymbol symbols s)
        | .function =>
            let symbols := symbols.set index (defaultSymbol address s)
            (p.setSymbols s.address symbols).resetFunctionName address

/-- Removes a symbol that is the same as the given one. A function's symbol stays as it is, only the
function loses its name. -/
def removeSymbol (s : Symbol) : Edit Unit :=
  modify fun p =>
    let symbols := p.symbolsAt s.address.value
    if symbols.any (·.same s) then
      match s.kind with
      | .label => p.setSymbols s.address (withoutSymbol symbols s)
      | .function => p.resetFunctionName s.address.value
    else p

/-- A label at an address, or the symbol of that name that is there already; answers its place in
the list. -/
def createLabel (address : Whole) (name : Json) (makePrimary : Bool) : Edit Nat := do
  let name ← ofResult (checkName name)
  let symbols := (← get).symbolsAt address.value
  match symbols.findIdx? (·.name == name) with
  | some index =>
      if makePrimary then
        modify fun p => p.setSymbols address
          (symbols.mapIdx fun i other => { other with primary := i == index })
      return index
  | none =>
      addSymbol { address, name, primary := makePrimary }
      return symbols.length

end StabsImport.Program

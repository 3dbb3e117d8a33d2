import StabsImport.Import.Functions
import StabsImport.Proofs.Accounts
import StabsImport.Proofs.Hexadecimal
import StabsImport.Proofs.Naming

/-!
# Renaming at the entry point

A function and its symbol are named together, save that a function can lose its name while its
symbol keeps it. Whatever was done to a program, naming a function clears the labels that are in
the way of its name, and both get that name or, if it is not fit to be one, keep theirs unless it is
a marker. Main statement: `nameFunction_renames`.
-/

namespace StabsImport

/-! ## Names fit for symbols -/

/-- A name with ink and no white space. -/
def IsProper (name : String) : Prop := name ≠ "" ∧ ∀ c ∈ name.toList, Text.isBlank c = false

instance (name : String) : Decidable (IsProper name) :=
  @instDecidableAnd _ _ inferInstance (List.decidableBAll (Text.isBlank · = false) name.toList)

namespace Program

variable {p q : Program} {address entry : Int} {f : Function} {own given : String}
  {name : Json} {symbols symbols' : List Symbol} {title : Option (Int × String)}

theorem isProper_iff : IsProper given ↔
    Text.isBlankText given = false ∧ Text.hasBlank given = false := by
  have inked : Text.hasBlank given = false ↔ ∀ c ∈ given.toList, Text.isBlank c = false := by
    simp [Text.hasBlank]
  rw [IsProper, inked, Text.isBlankText]
  constructor
  · intro ⟨nonempty, unblank⟩
    obtain ⟨c, hc⟩ := List.exists_mem_of_ne_nil _ (String.toList_eq_nil_iff.not.mpr nonempty)
    refine ⟨List.all_eq_false.mpr ⟨c, hc, ?_⟩, unblank⟩
    simp [unblank c hc]
  · intro ⟨ink, unblank⟩
    refine ⟨fun empty => ?_, unblank⟩
    simp [empty] at ink

theorem checkName_eq_ok : checkName name = .ok given ↔ name = .text given ∧ IsProper given := by
  rw [isProper_iff]
  constructor
  · intro h
    obtain rfl := text_of_checkName h
    unfold checkName at h
    cases hb : Text.isBlankText given <;> cases hw : Text.hasBlank given <;> simp_all
  · intro ⟨htext, hinked, hwhole⟩
    simp [htext, checkName, hinked, hwhole]

theorem isProper_defaultName (entry : Int) : IsProper (defaultName entry) := by
  have padded {width n : Nat} : ∀ c ∈ (Text.padLeft width (Text.hexDigits n)).toList,
      Text.isBlank c = false := by
    intro c hc
    rw [Text.padLeft, String.toList_append, String.toList_ofList, List.mem_append] at hc
    rcases hc with hc | hc
    · rw [(List.mem_replicate.mp hc).2]
      decide
    · exact Text.isBlank_of_mem_hexDigits hc
  have digits : ∀ c ∈ (Text.hex8 entry).toList, Text.isBlank c = false := by
    unfold Text.hex8
    split
    · rw [String.toList_append, List.forall_mem_append]
      exact ⟨by simp; decide, padded⟩
    · exact padded
  refine ⟨?_, ?_⟩
  · intro empty
    simp [defaultName] at empty
  · rw [defaultName, String.toList_append, List.forall_mem_append]
    exact ⟨by simp; decide, digits⟩

/-! ## Functions and their symbols -/

/-- Where a function lies that is stored at an address, and its name. -/
def titleAt (p : Program) (address : Int) : Option (Int × String) :=
  (p.function? address).map fun f => (f.entry.value, f.name)

/-- What stands at an address: no symbol of a function, or that of the function that is stored there
and lies there. The function goes by the name of its symbol, or has lost it. -/
inductive Titled (address : Int) : Option (Int × String) → List Symbol → Prop
  | bare {symbols : List Symbol} (fit : SymbolsFit address none symbols) :
      Titled address none symbols
  | owned {symbols : List Symbol} {own name : String} (fit : SymbolsFit address (some own) symbols)
      (proper : IsProper own) (either : name = own ∨ name = defaultName address) :
      Titled address (some (address, name)) symbols

/-- What the operations on names keep, wherever they leave off. -/
def NamesStand (p : Program) : Prop := ∀ address, Titled address (p.titleAt address) (p.symbolsAt address)

theorem Titled.map (h : Titled address title symbols)
    (fit : ∀ {own}, SymbolsFit address own symbols → SymbolsFit address own symbols') :
    Titled address title symbols' := by
  cases h with
  | bare h => exact .bare (fit h)
  | owned h proper either => exact .owned (fit h) proper either

theorem Titled.exists_fit (h : Titled address title symbols) :
    ∃ own, SymbolsFit address own symbols := by
  cases h with
  | bare fit => exact ⟨_, fit⟩
  | owned fit => exact ⟨_, fit⟩

namespace NamesStand

theorem of_same (h : p.NamesStand) (functions : ∀ a, q.titleAt a = p.titleAt a)
    (symbols : q.symbols = p.symbols) : q.NamesStand := by
  intro a
  rw [functions, symbolsAt, symbols]
  exact h a

/-- One address is changed. -/
theorem change (h : p.NamesStand) (address : Whole)
    (others : ∀ a, a ≠ address.value → q.titleAt a = p.titleAt a)
    (same : q.symbols = (p.setSymbols address symbols).symbols)
    (here : Titled address.value (q.titleAt address.value) symbols) : q.NamesStand := by
  have hat (a : Int) : q.symbolsAt a = (p.setSymbols address symbols).symbolsAt a := by
    rw [symbolsAt, same, symbolsAt]
  intro a
  rw [hat]
  by_cases ha : a = address.value
  · rw [ha, symbolsAt_setSymbols_self]
    exact here
  · rw [symbolsAt_setSymbols_of_ne _ _ ha, others a ha]
    exact h a

theorem setSymbols (h : p.NamesStand) {address : Whole} {l : List Symbol}
    (at_ : p.symbolsAt address.value = l)
    (fit : ∀ {own}, SymbolsFit address.value own l → SymbolsFit address.value own symbols) :
    (p.setSymbols address symbols).NamesStand := by
  refine h.change _ (fun _ _ => rfl) rfl ?_
  have here := h address.value
  rw [at_] at here
  exact here.map fit

theorem entry_eq (h : p.NamesStand) (hf : p.function? entry = some f) : f.entry.value = entry := by
  have here := h entry
  rw [titleAt, hf, Option.map_some] at here
  cases here
  rfl

/-- The function at an entry point, its symbol and the name of that. -/
theorem exists_own (h : p.NamesStand) (hf : p.function? entry = some f) :
    ∃ own, SymbolsFit entry (some own) (p.symbolsAt entry) ∧ IsProper own ∧
      (f.name = own ∨ f.name = defaultName entry) := by
  have here := h entry
  rw [titleAt, hf, Option.map_some, h.entry_eq hf] at here
  cases here with
  | owned fit proper either => exact ⟨_, fit, proper, either⟩

theorem address_eq (h : p.NamesStand) {s : Symbol} (hs : s ∈ p.symbolsAt address) :
    s.address.value = address := by
  obtain ⟨_, fit⟩ := (h address).exists_fit
  exact fit.here s hs

/-- A symbol of a function is there only if a function is. -/
theorem exists_function (h : p.NamesStand) {s : Symbol} (hs : s ∈ p.symbolsAt address)
    (function : s.kind = .function) : ∃ f, p.function? address = some f := by
  have here := h address
  cases hf : p.function? address with
  | some f => exact ⟨f, rfl⟩
  | none =>
      rw [titleAt, hf, Option.map_none] at here
      cases here with
      | bare fit => cases fit.mem_function.mpr ⟨s, hs, function, rfl⟩

theorem titleAt_update (h : p.NamesStand) (entry : Int) (edit : Function → Function)
    (entry_edit : ∀ g, (edit g).entry = g.entry) (other : Int) :
    { p with functions := p.functions.update entry edit : Program }.titleAt other =
      if other = entry then (p.function? entry).map fun g => (entry, (edit g).name)
      else p.titleAt other := by
  rw [titleAt, Program.function?, Ledger.get?_update]
  by_cases ho : other = entry
  · subst ho
    cases hf : p.functions.get? other with
    | none => simp [hf, Program.function?]
    | some g => simp [hf, Program.function?, entry_edit, h.entry_eq hf]
  · have apart : Key.same entry other = false := decide_eq_false fun heq => ho heq.symm
    rw [apart, if_neg ho]
    rfl

/-- Functions may be edited that keep their names. -/
theorem editFunction (h : p.NamesStand) {edit : Function → Function}
    (kept : ∀ g, (edit g).entry = g.entry ∧ (edit g).name = g.name) :
    { p with functions := p.functions.update entry edit : Program }.NamesStand := by
  refine h.of_same (fun other => ?_) rfl
  rw [h.titleAt_update _ edit fun g => (kept g).1]
  split
  · next ho =>
      subst ho
      cases hf : p.function? other with
      | none => simp [titleAt, hf]
      | some g => simp [titleAt, hf, kept, h.entry_eq hf]
  · rfl

/-- A function that is there changes its name together with its symbol. -/
theorem rename (h : p.NamesStand) {address : Whole} (known : p.function? address.value = some f)
    (fit : SymbolsFit address.value (some given) symbols) (proper : IsProper given) :
    { p.setSymbols address symbols with
      functions := p.functions.update address.value ({ · with name := given }) : Program
      }.NamesStand := by
  have titled := h.titleAt_update address.value ({ · with name := given }) fun _ => rfl
  refine h.change address (q := { p.setSymbols address symbols with
    functions := p.functions.update address.value ({ · with name := given }) }) ?_ rfl ?_
  · intro other ho
    exact (titled other).trans (if_neg ho)
  · have here := titled address.value
    rw [if_pos rfl, known, Option.map_some] at here
    refine here ▸ ?_
    exact .owned fit proper (.inl rfl)

end NamesStand

/-! ## Every step -/

theorem renameFunction_namesStand (h : p.NamesStand) (known : p.function? entry = some f)
    (name : Json) (source : SourceKind) :
    Runs (renameFunction entry name source) p (fun _ q => q.NamesStand) fun _ q => q.NamesStand := by
  rw [renameFunction, Runs.bind_iff, runs_ofResult]
  split
  · next name hname =>
      rw [Runs.bind_iff, Runs.get_iff, known]
      obtain ⟨own, fit, -, -⟩ := h.exists_own known
      have proper : IsProper name := (checkName_eq_ok.mp hname).2
      have renamed := fit.named rfl f.entry name source
      have here := h.entry_eq known
      subst here
      exact h.rename known renamed proper
  · exact h

theorem placeFunction_namesStand (h : p.NamesStand) {entry : Whole} {body : Whole × Bound}
    (fits : p.CanPlace entry body) : (p.placeFunction entry body).NamesStand := by
  refine h.change entry ?_ rfl ?_
  · intro other ho
    have apart : Key.same other entry.value = false := decide_eq_false ho
    simp [titleAt, placeFunction, function?, Program.setSymbols,
      Ledger.get?_put_of_not_same _ _ apart]
  · have free := h entry.value
    rw [titleAt, function?, fits.get?_eq_none, Option.map_none] at free
    rw [titleAt, function?_placeFunction]
    cases free with
    | bare fit =>
        have placed := fit.withFunction (s := newFunctionSymbol entry) rfl rfl
        exact .owned placed (isProper_defaultName _) (.inl rfl)

theorem createFunction_namesStand (h : p.NamesStand) (name : Json) (entry : Whole)
    (body : Option (Whole × Bound)) (source : SourceKind) :
    Runs (createFunction name entry body source) p (fun _ q => q.NamesStand) fun _ q =>
      q.NamesStand := by
  refine runs_createFunction (fun _ => h) fun fits => ?_
  split
  · exact renameFunction_namesStand (placeFunction_namesStand h fits) function?_placeFunction name
      source
  · exact placeFunction_namesStand h fits

theorem removeSymbolAt_namesStand (h : p.NamesStand) (address : Int) (index : Nat) :
    Runs (removeSymbolAt address index) p (fun _ q => q.NamesStand) fun _ q => q.NamesStand := by
  rw [removeSymbolAt, Runs.modify_iff]
  dsimp only
  split
  · exact h
  · next s hs =>
      have hmem := List.mem_of_getElem? hs
      have here := h.address_eq hmem
      subst here
      split
      · next label => exact h.setSymbols rfl fun fit => fit.without label
      · next function =>
          obtain ⟨f, known⟩ := h.exists_function hmem function
          obtain ⟨own, fit, -, -⟩ := h.exists_own known
          exact h.rename known (fit.reset hs function) (isProper_defaultName _)

/-- The function that loses its name keeps its symbol. -/
theorem resetFunctionName_namesStand (h : p.NamesStand) (address : Int) :
    (p.resetFunctionName address).NamesStand := by
  have titled := h.titleAt_update address ({ · with name := defaultName address })
    fun _ => rfl
  intro other
  show Titled other ((p.resetFunctionName address).titleAt other) (p.symbolsAt other)
  rw [resetFunctionName, titled]
  have here := h other
  split
  · next ho =>
      subst ho
      cases hf : p.function? other with
      | none =>
          rw [titleAt, hf] at here
          exact here
      | some f =>
          obtain ⟨own, fit, proper, -⟩ := h.exists_own hf
          exact .owned fit proper (.inr rfl)
  · exact here

theorem removeSymbol_namesStand (h : p.NamesStand) (s : Symbol) :
    Runs (removeSymbol s) p (fun _ q => q.NamesStand) fun _ q => q.NamesStand := by
  rw [removeSymbol, Runs.modify_iff]
  dsimp only
  split
  · split
    · next label => exact h.setSymbols rfl fun fit => fit.without label
    · exact resetFunctionName_namesStand h _
  · exact h

theorem createLabel_namesStand (h : p.NamesStand) (address : Whole) (name : Json)
    (makePrimary : Bool) :
    Runs (createLabel address name makePrimary) p (fun _ q => q.NamesStand) fun _ q =>
      q.NamesStand := by
  rw [createLabel, Runs.bind_iff, runs_ofResult]
  split
  · next name _ =>
      rw [Runs.bind_iff, Runs.get_iff]
      dsimp only
      split
      · split
        · refine h.setSymbols rfl fun fit => fit.of_tags ?_
          refine List.ext_getElem (by simp) fun i _ _ => ?_
          simp [Symbol.tag]
        · exact h
      · next hnone =>
          refine h.setSymbols rfl fun fit => fit.withLabel rfl rfl fun t ht => ?_
          simpa using List.findIdx?_eq_none_iff.mp hnone t ht
  · exact h

theorem createData_namesStand (h : p.NamesStand) (address : Int) (type : TypeId) (length : Int)
    (clear : Bool) :
    Runs (createData address type length clear) p (fun _ q => q.NamesStand) fun _ q =>
      q.NamesStand := by
  rw [createData, Runs.bind_iff, Runs.get_iff]
  dsimp only
  rw [Runs.ite_iff]
  split
  · rw [Runs.bind_iff, typeName, runs_view]
    split <;> exact h
  · rw [Runs.ite_iff]
    split
    · exact h
    · split
      · exact h
      · split
        · exact h
        · exact h

theorem setReturnType_namesStand (h : p.NamesStand) (entry : Int) (type : Option TypeId) :
    Runs (setReturnType entry type) p (fun _ q => q.NamesStand) fun _ q => q.NamesStand := by
  cases type with
  | none => exact h
  | some type => exact h.editFunction fun _ => ⟨rfl, rfl⟩

theorem replaceParameters_namesStand (h : p.NamesStand) (entry : Int)
    (parameters : List (Json × TypeId)) :
    Runs (replaceParameters entry parameters) p (fun _ q => q.NamesStand) fun _ q =>
      q.NamesStand := by
  refine Runs.mono (runs_replaceParameters p entry parameters) (fun _ q hq => ?_) fun _ q hq => ?_
  · obtain ⟨named, storage, -, -, rfl⟩ := hq
    exact h.editFunction fun _ => ⟨rfl, rfl⟩
  · exact hq.1 ▸ h

theorem addLocal_namesStand (h : p.NamesStand) (entry : Int) (name : Json) (type : TypeId)
    (stackOffset : Int) :
    Runs (addLocal entry name type stackOffset) p (fun _ q => q.NamesStand) fun _ q =>
      q.NamesStand := by
  rw [addLocal, Runs.bind_iff, Runs.get_iff]
  split
  · exact h
  · next f known =>
      rw [Runs.bind_iff, runs_ofResult]
      split
      · dsimp only
        rw [Runs.bind_iff, runs_ofExcept]
        split
        · have edited (locals : List LocalVariable) : p.functions.put entry { f with locals } =
              p.functions.update entry ({ · with locals }) := by
            rw [Ledger.update, show p.functions.get? entry = some f from known]
          rw [setFunction, Runs.modify_iff, h.entry_eq known, edited]
          exact h.editFunction fun _ => ⟨rfl, rfl⟩
        · exact h
      · exact h

end Program

/-- A step of the program database: an operation, the removal of a symbol like the given one, which
takes the name off a function and leaves it to its symbol, an edit of the details of a function, or
any change of the types. -/
inductive DatabaseStep where
  | operation (o : Operation)
  | removeSymbol (s : Symbol)
  | setReturnType (entry : Int) (type : Option TypeId)
  | replaceParameters (entry : Int) (parameters : List (Json × TypeId))
  | addLocal (entry : Int) (name : Json) (type : TypeId) (stackOffset : Int)
  | changeTypes (arena : Arena) (registry : Ledger Json TypeId)

namespace DatabaseStep

def edit : DatabaseStep → Edit Unit
  | operation o => o.edit
  | removeSymbol s => Program.removeSymbol s
  | setReturnType entry type => Program.setReturnType entry type
  | replaceParameters entry parameters => Program.replaceParameters entry parameters
  | addLocal entry name type stackOffset => Program.addLocal entry name type stackOffset
  | changeTypes arena registry => modify fun p => { p with arena, registry }

/-- The program a step leaves behind, whether it succeeds or fails. -/
def perform (p : Program) (step : DatabaseStep) : Program := (step.edit p).2

def performAll (p : Program) (steps : List DatabaseStep) : Program := steps.foldl perform p

theorem operation_namesStand {p : Program} (h : p.NamesStand) (o : Operation) :
    Runs o.edit p (fun _ q => q.NamesStand) fun _ q => q.NamesStand := by
  cases o with
  | createFunction name entry body source =>
      exact Program.createFunction_namesStand h name entry body source
  | renameFunction entry name source =>
      rw [Operation.edit, Runs.bind_iff, Runs.get_iff, Runs.ite_iff]
      split
      · next known =>
          obtain ⟨f, known⟩ := Option.isSome_iff_exists.mp known
          exact Program.renameFunction_namesStand h known name source
      · exact h
  | setFunctionComment entry comment => exact h.editFunction fun _ => ⟨rfl, rfl⟩
  | removeSymbol address index => exact Program.removeSymbolAt_namesStand h address index
  | removeLabel label => exact Program.removeSymbol_namesStand h _
  | createLabel address name makePrimary =>
      rw [Operation.edit, Runs.bind_iff]
      exact Program.createLabel_namesStand h address name makePrimary
  | setComment address kind text => exact h
  | createData address type length clear =>
      exact Program.createData_namesStand h address type length clear

/-- What one step keeps. -/
theorem perform_namesStand {p : Program} (h : p.NamesStand) (step : DatabaseStep) :
    (perform p step).NamesStand := by
  have hrun : Runs step.edit p (fun _ q => q.NamesStand) fun _ q => q.NamesStand := by
    cases step with
    | operation o => exact operation_namesStand h o
    | removeSymbol s => exact Program.removeSymbol_namesStand h s
    | setReturnType entry type => exact Program.setReturnType_namesStand h entry type
    | replaceParameters entry parameters =>
        exact Program.replaceParameters_namesStand h entry parameters
    | addLocal entry name type stackOffset =>
        exact Program.addLocal_namesStand h entry name type stackOffset
    | changeTypes arena registry => exact h
  exact hrun.snd

theorem performAll_namesStand {p : Program} (h : p.NamesStand) (steps : List DatabaseStep) :
    (performAll p steps).NamesStand := by
  induction steps generalizing p with
  | nil => exact h
  | cons step steps ih => exact ih (perform_namesStand h step)

end DatabaseStep

/-! ## The name a function ends with -/

namespace Program

open Import (noiseLabels)

/-- A name that is left to a function or its symbol, unless it is a marker. -/
def unmarked (entry : Int) (old : String) : String :=
  if noiseLabels.contains old then defaultName entry else old

/-- What becomes of a name when the function is to be given another. -/
def nameAfter (entry : Int) (name : Json) (old : String) : String :=
  match name with
  | .text given => if IsProper given then given else unmarked entry old
  | _ => unmarked entry old

theorem nameAfter_of_ok (entry : Int) (h : checkName name = .ok given) (old : String) :
    nameAfter entry name old = given := by
  obtain ⟨rfl, proper⟩ := checkName_eq_ok.mp h
  rw [nameAfter, if_pos proper]

theorem nameAfter_of_error {e : Fault} (h : checkName name = .error e) (old : String) :
    nameAfter entry name old = unmarked entry old := by
  unfold nameAfter
  split
  · next given =>
      refine if_neg fun proper => ?_
      rw [checkName_eq_ok.mpr ⟨rfl, proper⟩] at h
      cases h
  · rfl

/-- A name in use is in nobody's way that asks for an unfit one, unless it is a marker. -/
theorem isKept_of_error {e : Fault} (h : checkName name = .error e) (proper : IsProper own) :
    isKept name own = !noiseLabels.contains own := by
  have other : name ≠ .text own := by
    rintro rfl
    rw [checkName_eq_ok.mpr ⟨rfl, proper⟩] at h
    cases h
  simp [isKept, other]

/-- What a function or its symbol is called when the way is clear for an unfit name. -/
theorem cleared_of_error {e : Fault} {old : String} (h : checkName name = .error e)
    (proper : IsProper own) (either : old = own ∨ old = defaultName entry) :
    (if isKept name own then old else defaultName entry) = nameAfter entry name old := by
  rw [nameAfter_of_error h, isKept_of_error h proper, unmarked]
  rcases either with rfl | rfl
  · cases noiseLabels.contains old <;> rfl
  · rw [ite_self, ite_self]

/-- The names of the functions' symbols among symbols. -/
def functionNames (symbols : List Symbol) : List String :=
  (symbols.filter (·.kind == .function)).map (·.name)

/-- The function at an entry point is given a name and a comment. -/
structure Renames (entry : Int) (name comment : Json) (p q : Program) : Prop where
  /-- The labels in the way of the name are gone. -/
  labels : labels (q.symbolsAt entry) = (labels (p.symbolsAt entry)).filter (isKept name ·.name)
  /-- The function goes by the name of its symbol, or has lost it. -/
  named : ∃ f own, p.function? entry = some f ∧ functionNames (p.symbolsAt entry) = [own] ∧
    (f.name = own ∨ f.name = defaultName entry) ∧
    q.function? entry = some { f with name := nameAfter entry name f.name, comment } ∧
    functionNames (q.symbolsAt entry) = [nameAfter entry name own]
  functions_elsewhere : ∀ other, other ≠ entry → q.function? other = p.function? other
  symbols_elsewhere : ∀ other, other ≠ entry → q.symbolsAt other = p.symbolsAt other

theorem Redraws.renames {comment : Json} (hf : p.function? entry = some f)
    (fit : SymbolsFit entry (some own) (p.symbolsAt entry))
    (either : f.name = own ∨ f.name = defaultName entry)
    (h : Redraws entry { f with name := nameAfter entry name f.name, comment }
      (curated entry name (p.symbolsAt entry)) [] p q)
    (fit' : SymbolsFit entry (some (nameAfter entry name own)) (curated entry name (p.symbolsAt entry))) :
    Renames entry name comment p q where
  labels := by rw [h.symbolsAt, labels_curated]
  named := by
    refine ⟨f, own, hf, fit.functions, either, h.function?, ?_⟩
    rw [h.symbolsAt]
    exact fit'.functions
  functions_elsewhere _ ho := h.function?_of_ne ho
  symbols_elsewhere _ ho := h.symbolsAt_of_ne ho

end Program

namespace Import

open Document (FunctionDefinition SourceFile)
open Program

variable {s : Session} {entry : Int} {f : Function}

/-- An unfit name is refused if it is a text or as good as none. -/
theorem isRejection_of_checkName {name : Json} {e : Fault} (h : checkName name = .error e) :
    e.isRejection = true ∨ name.holds = true ∧ ∀ given, name ≠ .text given := by
  unfold checkName at h
  split at h
  · split at h
    · cases h
      exact .inl rfl
    · split at h
      · cases h
        exact .inl rfl
      · cases h
  · next other =>
      by_cases held : name.holds = true
      · exact .inr ⟨held, fun given => other given⟩
      · rw [if_neg held] at h
        cases h
        exact .inl rfl

/-- Naming a function comes to its end unless the name is neither a text nor as good as none, or
there is no room to report that it is unfit. -/
theorem nameFunction_names (stand : s.program.NamesStand) (hf : s.program.function? entry = some f)
    (d : FunctionDefinition) (file : SourceFile) :
    Runs (nameFunction entry d file) s
      (fun _ t => Renames entry d.common.name file.path s.program t.program)
      fun _ _ => (d.common.name.holds = true ∧ ∀ given, d.common.name ≠ .text given) ∨
        s.room.allows reportingCalls = false := by
  obtain ⟨own, fit, proper, either⟩ := stand.exists_own hf
  have stands : s.program.StandsAs entry own f (s.program.symbolsAt entry) :=
    .of_fit hf (stand.entry_eq hf) fit
  -- The comment comes last, once the function and its symbol have their names.
  have commented {bad : Fault → Session → Prop} {t : Session}
      (drawn : Redraws entry { f with name := nameAfter entry d.common.name f.name }
        (curated entry d.common.name (s.program.symbolsAt entry)) [] s.program t.program)
      (fitt : SymbolsFit entry (some (nameAfter entry d.common.name own))
        (curated entry d.common.name (s.program.symbolsAt entry))) :
      Runs (edit (setFunctionComment entry file.path)) t
        (fun _ u => Renames entry d.common.name file.path s.program u.program) bad := by
    have standst := stands.drawn drawn stands.here fitt
    rw [runs_edit]
    refine Runs.mono (standst.editFunction ({ · with comment := file.path })) (fun _ u hu => ?_)
      fun _ _ h => h.elim
    exact (drawn.trans hu).renames hf fit either fitt
  rw [nameFunction, Runs.bind_iff, runs_edit]
  refine Runs.mono (stands.clear d.common.name) (fun _ q hq => ?_) fun _ _ h => h.elim
  obtain ⟨drawn, fitq⟩ := hq
  have standsq := stands.drawn drawn stands.here fitq
  rw [Runs.bind_iff, runs_onRejection, runs_edit]
  cases hname : checkName d.common.name with
  | ok given =>
      refine Runs.mono (standsq.rename hname) (fun _ r hr => ?_) fun _ _ h => h.elim
      obtain ⟨drawnr, fitr⟩ := hr
      rw [christened_cleared hname] at drawnr fitr
      rw [← nameAfter_of_ok entry hname f.name] at drawnr
      rw [← nameAfter_of_ok entry hname own] at fitr
      exact commented (drawn.trans drawnr) fitr
  | error e =>
      refine Runs.mono (renameFunction_unfit hname) (fun _ _ h => h.elim) fun _ r hr => ?_
      obtain ⟨rfl, rfl⟩ := hr
      have same : cleared entry d.common.name (s.program.symbolsAt entry) =
          curated entry d.common.name (s.program.symbolsAt entry) := by
        rw [curated, hname]
      rw [same, cleared_of_error hname proper either] at drawn
      rw [same, clearedName, cleared_of_error hname proper (.inl rfl)] at fitq
      split
      · rw [reportFault, diagnose, Runs.bind_iff, runs_need]
        split
        · rw [Runs.modify_iff]
          exact commented drawn fitq
        · next full => exact .inr (Bool.eq_false_iff.mpr full)
      · next other => exact .inl ((isRejection_of_checkName hname).resolve_left other)

/-- In every program that steps of the database lead to, naming a function that is there clears the
labels in the way, names the function and its symbol and sets the comment; all other functions and
symbols stay. It comes to its end if the name is a text or as good as none and there is room for a
report. -/
theorem nameFunction_renames {executable : Option String} {pointerSize : Int}
    {convention : CallingConvention} {memory : List (Int × Int)} {arena : Arena}
    {steps : List DatabaseStep}
    (reached : s.program = DatabaseStep.performAll
      { executable, pointerSize, convention, memory, arena } steps)
    (hf : s.program.function? entry = some f) (d : FunctionDefinition) (file : SourceFile) :
    ∃ r t, nameFunction entry d file s = (r, t) ∧
      (r = .ok () → Renames entry d.common.name file.path s.program t.program) ∧
      ((d.common.name.holds = true → ∃ given, d.common.name = .text given) →
        s.room.allows reportingCalls = true → r = .ok ()) := by
  have stand : s.program.NamesStand := by
    rw [reached]
    exact DatabaseStep.performAll_namesStand (fun _ => .bare .nil) steps
  have runs := nameFunction_names stand hf d file
  rw [Runs] at runs
  rcases hrun : nameFunction entry d file s with ⟨e | _, t⟩
  · rw [hrun] at runs
    refine ⟨.error e, t, rfl, (by intro h; cases h), fun fits room => ?_⟩
    rcases runs with ⟨held, other⟩ | full
    · obtain ⟨given, hgiven⟩ := fits held
      exact absurd hgiven (other given)
    · rw [room] at full
      cases full
  · rw [hrun] at runs
    exact ⟨.ok (), t, rfl, fun _ => runs, fun _ _ => rfl⟩

/-- A function called after a marker, which it has lost, between three labels. -/
def markedSteps : List DatabaseStep :=
  [.operation (.createLabel (.ofInt 16) (.text "gcc2_compiled.") true),
   .operation (.createLabel (.ofInt 16) (.text "start") false),
   .operation (.createFunction (.text "__gnu_compiled_cplusplus") (.ofInt 16) none .analysis),
   .removeSymbol { address := .ofInt 16, name := "__gnu_compiled_cplusplus", kind := .function,
                   source := .analysis, primary := true },
   .operation (.createLabel (.ofInt 16) (.text "main") false)]

def markedSession : Session :=
  { document := {}, program := DatabaseStep.performAll { memory := [(0, 4096)] } markedSteps }

/-- A definition with this name. -/
def bareDefinition (name : Json) : FunctionDefinition where
  common := { serial := 0, name }
  low := .int 16
  high := .int 17
  relativePath := .null
  type :=
    { common := { serial := 1 }, returnType := none, parameters := none, modifier := .null,
      isConstructor := false, vtableIndex := -1 }
  locals := []
  lineNumbers := []
  breadcrumbs := []

def bareFile : SourceFile where
  common := { serial := 2 }
  path := .text "/src/main.cpp"
  relativePath := .null
  textAddress := 0
  functions := []
  globals := []
  typeNumbers := {}

theorem nameFunction_renames_marked :
    ∃ t, nameFunction 16 (bareDefinition (.text "main")) bareFile markedSession = (.ok (), t) ∧
      Renames 16 (.text "main") (.text "/src/main.cpp") markedSession.program t.program ∧
      (t.program.symbolsAt 16).map (·.name) = ["start", "main"] := by
  obtain ⟨f, hf⟩ : ∃ f, markedSession.program.function? 16 = some f :=
    Option.isSome_iff_exists.mp (by decide +kernel)
  have reached : markedSession.program =
      DatabaseStep.performAll { memory := [(0, 4096)] } markedSteps := rfl
  obtain ⟨r, t, hrun, renames, ends⟩ := nameFunction_renames reached hf
    (bareDefinition (.text "main")) bareFile
  have done : r = .ok () := ends (fun _ => ⟨"main", rfl⟩) (Room.allows_none _)
  subst done
  have final : t = (nameFunction 16 (bareDefinition (.text "main")) bareFile markedSession).2 := by
    rw [hrun]
  refine ⟨t, hrun, renames rfl, ?_⟩
  rw [final]
  decide +kernel

/-- An unfit name leaves all but the marker. -/
example :
    let t := (nameFunction 16 (bareDefinition (.text "my main")) bareFile markedSession).2
    (t.program.symbolsAt 16).map (·.name) = ["start", "FUN_00000010", "main"] ∧
      t.program.functions.values.map (·.name) = ["FUN_00000010"] := by
  decide +kernel

end Import

end StabsImport

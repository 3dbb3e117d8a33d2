import StabsImport.Proofs.Edits
import StabsImport.Proofs.Labelling
import StabsImport.Proofs.Overwriting

/-!
# The naming of a function

Before a function gets its name, the labels in its way are cleared from its entry point. What the
edits of one function and of the symbols at its entry point come to is told in one place.
-/

namespace StabsImport

namespace Program

open Import (isStale noiseLabels dropStale dropSymbol)

variable {p q r : Program} {entry : Int} {f g : Function} {own : String}
  {symbols symbols' : List Symbol}
  {comments comments' : List ((Int × CommentKind) × String)} {name : Json} {α : Type}

/-! ## A function and the symbols at its entry point -/

/-- The function and the symbols at an entry point are these, and comments were written; all else in
the tables is as it was. -/
structure Redraws (entry : Int) (f : Function) (symbols : List Symbol)
    (comments : List ((Int × CommentKind) × String)) (p q : Program) : Prop where
  functions : q.functions = p.functions.put entry f
  symbols : q.symbols = p.symbols.put (.ofInt entry) symbols
  comments : q.comments = p.comments.putAll comments
  data : q.data = p.data

namespace Redraws

theorem refl (hf : p.function? entry = some f) (hs : p.symbols.get? (.ofInt entry) = some symbols) :
    Redraws entry f symbols [] p p :=
  ⟨(Ledger.put_of_get? hf).symm, (Ledger.put_of_get? hs).symm, rfl, rfl⟩

theorem trans (h : Redraws entry f symbols comments p q)
    (h' : Redraws entry g symbols' comments' q r) :
    Redraws entry g symbols' (comments ++ comments') p r where
  functions := by rw [h'.functions, h.functions, Ledger.put_put]
  symbols := by rw [h'.symbols, h.symbols, Ledger.put_put]
  comments := by rw [h'.comments, h.comments, Ledger.putAll_append]
  data := h'.data.trans h.data

theorem function? (h : Redraws entry f symbols comments p q) : q.function? entry = some f := by
  rw [Program.function?, h.functions, Ledger.get?_put_self]

theorem held (h : Redraws entry f symbols comments p q) :
    q.symbols.get? (.ofInt entry) = some symbols := by
  rw [h.symbols, Ledger.get?_put_self]

theorem symbolsAt (h : Redraws entry f symbols comments p q) : q.symbolsAt entry = symbols := by
  rw [Program.symbolsAt, h.held, Option.getD_some]

theorem function?_of_ne (h : Redraws entry f symbols comments p q) {other : Int}
    (hne : other ≠ entry) : q.function? other = p.function? other := by
  rw [Program.function?, h.functions, Ledger.get?_put, if_neg]
  · rfl
  · exact fun hsame => hne (of_decide_eq_true hsame).symm

theorem symbolsAt_of_ne (h : Redraws entry f symbols comments p q) {other : Int}
    (hne : other ≠ entry) : q.symbolsAt other = p.symbolsAt other := by
  rw [Program.symbolsAt, h.symbols, Ledger.get?_put, if_neg]
  · rfl
  · exact fun hsame => hne (of_decide_eq_true hsame).symm

end Redraws

/-- What stands at an entry point. The symbol of the function has a name of its own: a function can
lose its name while its symbol keeps it. -/
structure StandsAs (p : Program) (entry : Int) (own : String) (f : Function)
    (symbols : List Symbol) : Prop where
  function : p.function? entry = some f
  held : p.symbols.get? (.ofInt entry) = some symbols
  here : f.entry.value = entry
  fit : SymbolsFit entry (some own) symbols

namespace StandsAs

/-- Its symbol is there, so there are symbols at its entry point. -/
theorem of_fit (function : p.function? entry = some f) (here : f.entry.value = entry)
    (fit : SymbolsFit entry (some own) (p.symbolsAt entry)) :
    p.StandsAs entry own f (p.symbolsAt entry) := by
  refine ⟨function, ?_, here, fit⟩
  obtain ⟨s, hs, -⟩ := fit.exists_function rfl
  rw [Program.symbolsAt] at hs ⊢
  cases held : p.symbols.get? (.ofInt entry) with
  | some symbols => rfl
  | none =>
      rw [held] at hs
      cases hs

theorem symbolsAt (h : p.StandsAs entry own f symbols) : p.symbolsAt entry = symbols := by
  rw [Program.symbolsAt, h.held, Option.getD_some]

theorem redraws (h : p.StandsAs entry own f symbols) : Redraws entry f symbols [] p p :=
  .refl h.function h.held

theorem drawn (_ : p.StandsAs entry own f symbols) {given : String}
    (h : Redraws entry g symbols' comments p q) (hg : g.entry.value = entry)
    (fit : SymbolsFit entry (some given) symbols') : q.StandsAs entry given g symbols' :=
  ⟨h.function?, h.held, hg, fit⟩

/-- The function alone is edited. -/
theorem editFunction (h : p.StandsAs entry own f symbols) (edit : Function → Function) :
    Runs (Program.editFunction entry edit) p
      (fun _ q => Redraws entry (edit f) symbols [] p q) fun _ _ => False := by
  refine ⟨?_, h.redraws.symbols, rfl, rfl⟩
  show p.functions.update entry edit = _
  rw [Ledger.update, show p.functions.get? entry = some f from h.function]

/-- Some symbol is left at the entry point, that of the function. -/
theorem setSymbols (h : p.StandsAs entry own f symbols) {address : Whole}
    (ha : address.value = entry) {given : String} (fit : SymbolsFit entry (some given) symbols') :
    (p.setSymbols address symbols').symbols = p.symbols.put (.ofInt entry) symbols' := by
  have some : symbols'.isEmpty = false := by
    rw [List.isEmpty_eq_false_iff]
    rintro rfl
    obtain ⟨s, hs, -⟩ := fit.exists_function rfl
    cases hs
  have spelling : Key.same (Whole.ofInt entry) address = true := decide_eq_true ha.symm
  show (if symbols'.isEmpty then _ else p.symbols.put address symbols') = _
  rw [if_neg (by simp [some]), Ledger.put_spelling _ spelling]
  rw [h.held]
  exact Option.some_ne_none symbols

theorem not_mem_of_label {done rest : List Symbol} {s : Symbol}
    (h : p.StandsAs entry own f (done ++ s :: rest)) (label : s.kind = .label) :
    ∀ t ∈ done, ¬ (t.kind = .label ∧ t.name = s.name) := by
  rintro t ht ⟨hkind, hname⟩
  have nodup : (labelNames (done ++ s :: rest)).Nodup := h.fit.labels
  rw [labelNames_append, labelNames_cons, if_pos label] at nodup
  refine (List.nodup_append.mp nodup).2.2 t.name ?_ s.name List.mem_cons_self hname
  exact mem_labelNames.mpr ⟨t, ht, hkind, rfl⟩

theorem not_mem_of_function {done rest : List Symbol} {s : Symbol}
    (h : p.StandsAs entry own f (done ++ s :: rest)) (function : s.kind = .function) :
    ∀ t ∈ done ++ rest, t.kind = .label := by
  intro t ht
  have one := congrArg List.length h.fit.functions
  simp only [List.filter_append, List.filter_cons, function, beq_self_eq_true, if_true,
    List.map_append, List.map_cons, List.length_append, List.length_cons, List.length_map,
    Option.toList_some, List.length_nil] at one
  cases hkind : t.kind with
  | label => rfl
  | function =>
      have hpos : 0 < ((done ++ rest).filter (·.kind == .function)).length :=
        List.length_pos_of_mem (List.mem_filter.mpr ⟨ht, by simp [hkind]⟩)
      rw [List.filter_append, List.length_append] at hpos
      omega

theorem findIdx?_symbol {done rest : List Symbol} {s : Symbol} (fresh : ∀ t ∈ done, t ≠ s) :
    (done ++ s :: rest).findIdx? (· == s) = some done.length := by
  have hdone : done.findIdx? (· == s) = none :=
    List.findIdx?_eq_none_iff.mpr fun t ht => by simpa using fresh t ht
  simp [List.findIdx?_append, hdone, List.findIdx?_cons]

/-- A label is dropped. -/
theorem dropLabel {done rest : List Symbol} {s : Symbol}
    (h : p.StandsAs entry own f (done ++ s :: rest)) (label : s.kind = .label) :
    Runs (dropSymbol entry s) p
      (fun _ q => Redraws entry f (done ++ rest) [] p q ∧ SymbolsFit entry (some own) (done ++ rest))
      fun _ _ => False := by
  have apart := h.not_mem_of_label label
  have without : withoutSymbol (done ++ s :: rest) s = done ++ rest := by
    have hdone : ∀ t ∈ done, ¬ t.same s = true := by
      intro t ht hsame
      simp only [Symbol.same, Bool.and_eq_true, beq_iff_eq] at hsame
      exact apart t ht ⟨hsame.1.1.2.trans label, hsame.1.1.1.2⟩
    have self : s.same s = true := by simp [Symbol.same]
    rw [withoutSymbol, List.eraseP_append_right _ hdone, List.eraseP_cons_of_pos (p := fun t : Symbol => t.same s) self]
  have fit : SymbolsFit entry (some own) (done ++ rest) := without ▸ h.fit.without label
  have here : s.address.value = entry := h.fit.here s (by simp)
  rw [dropSymbol, Runs.bind_iff, Runs.get_iff, h.symbolsAt,
    findIdx?_symbol fun t ht hts => apart t ht ⟨hts ▸ label, hts ▸ rfl⟩]
  show Runs (removeSymbolAt entry done.length) p _ _
  rw [removeSymbolAt, Runs.modify_iff, h.symbolsAt]
  simp only [List.getElem?_append_right (Nat.le_refl _), Nat.sub_self, List.getElem?_cons_zero,
    label, without]
  exact ⟨⟨h.redraws.functions, h.setSymbols here fit, rfl, rfl⟩, fit⟩

/-- The function loses its name. -/
theorem dropFunction {done rest : List Symbol} {s : Symbol}
    (h : p.StandsAs entry own f (done ++ s :: rest)) (function : s.kind = .function) :
    Runs (dropSymbol entry s) p
      (fun _ q =>
        Redraws entry { f with name := defaultName entry }
          (done ++ defaultSymbol entry s :: rest) [] p q ∧
        SymbolsFit entry (some (defaultName entry)) (done ++ defaultSymbol entry s :: rest))
      fun _ _ => False := by
  have apart := h.not_mem_of_function function
  have fit : SymbolsFit entry (some (defaultName entry)) (done ++ defaultSymbol entry s :: rest) :=
    h.fit.replace (t := defaultSymbol entry s) function function (h.fit.here s (by simp))
  have here : s.address.value = entry := h.fit.here s (by simp)
  have fresh : ∀ t ∈ done, t ≠ s := by
    rintro t ht rfl
    have hlabel := apart t (List.mem_append_left _ ht)
    rw [function] at hlabel
    cases hlabel
  rw [dropSymbol, Runs.bind_iff, Runs.get_iff, h.symbolsAt, findIdx?_symbol fresh]
  show Runs (removeSymbolAt entry done.length) p _ _
  rw [removeSymbolAt, Runs.modify_iff, h.symbolsAt]
  simp only [List.getElem?_append_right (Nat.le_refl _), Nat.sub_self, List.getElem?_cons_zero,
    function, List.set_append_right _ _ (Nat.le_refl _), List.set_cons_zero]
  refine ⟨⟨?_, h.setSymbols here fit, rfl, rfl⟩, fit⟩
  have renamed := h.editFunction ({ · with name := defaultName entry })
  exact renamed.functions

end StandsAs

/-- What stands at an entry point, where the function has the name of its symbol. -/
structure Stands (p : Program) (entry : Int) (f : Function) (symbols : List Symbol) : Prop where
  function : p.function? entry = some f
  held : p.symbols.get? (.ofInt entry) = some symbols
  here : f.entry.value = entry
  fit : SymbolsFit entry (some f.name) symbols

namespace Stands

theorem standsAs (h : p.Stands entry f symbols) : p.StandsAs entry f.name f symbols :=
  ⟨h.function, h.held, h.here, h.fit⟩

theorem symbolsAt (h : p.Stands entry f symbols) : p.symbolsAt entry = symbols :=
  h.standsAs.symbolsAt

theorem redraws (h : p.Stands entry f symbols) : Redraws entry f symbols [] p p :=
  h.standsAs.redraws

theorem drawn (_ : p.Stands entry f symbols) (h : Redraws entry g symbols' comments p q)
    (hg : g.entry.value = entry) (fit : SymbolsFit entry (some g.name) symbols') : q.Stands entry g symbols' :=
  ⟨h.function?, h.held, hg, fit⟩

/-- The function alone is edited. -/
theorem editFunction (h : p.Stands entry f symbols) (edit : Function → Function) :
    Runs (Program.editFunction entry edit) p
      (fun _ q => Redraws entry (edit f) symbols [] p q) fun _ _ => False :=
  h.standsAs.editFunction edit

end Stands

/-! ## What is cleared -/

/-- A name that is in nobody's way. -/
def isKept (name : Json) (n : String) : Bool := !(noiseLabels.contains n || name = .text n)

/-- What is left of symbols that are cleared: not the labels in the way, and the function under its
default name if that is in the way. -/
def cleared (entry : Int) (name : Json) (symbols : List Symbol) : List Symbol :=
  (symbols.filter fun s => s.kind == .function || isKept name s.name).map fun s =>
    if isStale name s then defaultSymbol entry s else s

/-- The name of a function whose symbol was cleared. -/
def clearedName (entry : Int) (name : Json) (own : String) : String :=
  if isKept name own then own else defaultName entry

theorem isKept_eq (name : Json) (s : Symbol) : isKept name s.name = !isStale name s := rfl

theorem cleared_cons (entry : Int) (name : Json) (s : Symbol) (rest : List Symbol) :
    cleared entry name (s :: rest) =
      if s.kind = .label ∧ isStale name s = true then cleared entry name rest
      else (if isStale name s then defaultSymbol entry s else s) :: cleared entry name rest := by
  unfold cleared
  cases hk : s.kind <;> cases hs : isStale name s <;> simp [hk, hs, isKept_eq]

/-- The symbols in the way are removed one by one. -/
theorem runs_dropStale {done todo : List Symbol} (h : p.StandsAs entry own f (done ++ todo)) :
    Runs (dropStale entry name todo) p
      (fun _ q => ∃ reset, reset = (todo.any fun s => s.kind == .function && isStale name s) ∧
        Redraws entry { f with name := if reset then defaultName entry else f.name }
          (done ++ cleared entry name todo) [] p q ∧
        SymbolsFit entry (some (if reset then defaultName entry else own))
          (done ++ cleared entry name todo))
      fun _ _ => False := by
  induction todo generalizing p f own done with
  | nil => exact ⟨false, rfl, h.redraws, h.fit⟩
  | cons s rest ih =>
      rw [dropStale]
      cases hstale : isStale name s with
      | false =>
          have hsplit : done ++ s :: rest = done ++ [s] ++ rest := by simp
          rw [hsplit] at h
          refine Runs.mono (ih h) (fun _ q hq => ?_) fun _ _ h => h
          obtain ⟨reset, hreset, hq, fit⟩ := hq
          have kept : cleared entry name (s :: rest) = s :: cleared entry name rest := by
            simp [cleared_cons, hstale]
          rw [List.append_assoc, List.singleton_append] at hq fit
          refine ⟨reset, ?_, ?_⟩
          · rw [hreset, List.any_cons, hstale, Bool.and_false, Bool.false_or]
          · rw [kept]
            exact ⟨hq, fit⟩
      | true =>
          rw [if_pos rfl, Runs.bind_iff]
          cases hkind : s.kind with
          | label =>
              refine Runs.mono (h.dropLabel hkind) (fun _ q hq => ?_) fun _ _ h => h
              refine Runs.mono (ih (h.drawn hq.1 h.here hq.2)) (fun _ r hr => ?_) fun _ _ h => h
              obtain ⟨reset, hreset, hr, fit⟩ := hr
              have gone : cleared entry name (s :: rest) = cleared entry name rest := by
                rw [cleared_cons, if_pos ⟨hkind, hstale⟩]
              have unmatched : (SymbolKind.label == SymbolKind.function) = false := rfl
              refine ⟨reset, ?_, ?_⟩
              · rw [hreset, List.any_cons, hkind, unmatched, Bool.false_and, Bool.false_or]
              · rw [gone]
                exact ⟨hq.1.trans hr, fit⟩
          | function =>
              refine Runs.mono (h.dropFunction hkind) (fun _ q hq => ?_) fun _ _ h => h
              have hq' := h.drawn hq.1 h.here hq.2
              rw [show done ++ defaultSymbol entry s :: rest = done ++ [defaultSymbol entry s] ++ rest
                by simp] at hq'
              refine Runs.mono (ih hq') (fun _ r hr => ?_) fun _ _ h => h
              obtain ⟨_, -, hr, fit⟩ := hr
              have reset : cleared entry name (s :: rest) =
                  defaultSymbol entry s :: cleared entry name rest := by
                rw [cleared_cons, if_neg (by simp [hkind]), if_pos hstale]
              have named : (s :: rest).any (fun s => s.kind == .function && isStale name s) = true := by
                simp [hkind, hstale]
              rw [List.append_assoc, List.singleton_append, ite_self] at hr fit
              refine ⟨true, named.symm, ?_⟩
              rw [reset]
              exact ⟨hq.1.trans hr, fit⟩

/-- All that is in the way is cleared. -/
theorem StandsAs.clear (h : p.StandsAs entry own f symbols) (name : Json) :
    Runs (do dropStale entry name ((← get).symbolsAt entry)) p
      (fun _ q =>
        Redraws entry { f with name := if isKept name own then f.name else defaultName entry }
          (cleared entry name symbols) [] p q ∧
        SymbolsFit entry (some (clearedName entry name own)) (cleared entry name symbols))
      fun _ _ => False := by
  rw [Runs.bind_iff, Runs.get_iff, h.symbolsAt]
  have start : p.StandsAs entry own f ([] ++ symbols) := h
  refine Runs.mono (runs_dropStale start) (fun _ q hq => ?_) fun _ _ h => h
  obtain ⟨_, rfl, hq⟩ := hq
  have stale : (symbols.any fun s => s.kind == .function && isStale name s) =
      !isKept name own := by
    obtain ⟨s, hs, hkind⟩ := h.fit.exists_function rfl
    rw [Bool.eq_iff_iff, List.any_eq_true]
    constructor
    · rintro ⟨t, ht, hstale⟩
      rw [Bool.and_eq_true, beq_iff_eq] at hstale
      rw [← h.fit.name_eq ht hstale.1, isKept_eq, Bool.not_not]
      exact hstale.2
    · intro hkept
      rw [← h.fit.name_eq hs hkind, isKept_eq, Bool.not_not] at hkept
      exact ⟨s, hs, by simp [hkind, hkept]⟩
  have either (kept : String) : (if symbols.any fun s => s.kind == .function && isStale name s then
      defaultName entry else kept) = if isKept name own then kept else defaultName entry := by
    rw [stale]
    cases isKept name own <;> rfl
  simp only [either] at hq
  exact hq

theorem Stands.clear (h : p.Stands entry f symbols) (name : Json) :
    Runs (do dropStale entry name ((← get).symbolsAt entry)) p
      (fun _ q =>
        Redraws entry { f with name := clearedName entry name f.name } (cleared entry name symbols) []
          p q ∧
        SymbolsFit entry (some (clearedName entry name f.name)) (cleared entry name symbols))
      fun _ _ => False :=
  h.standsAs.clear name

/-! ## The name -/

/-- The symbol of a function under its name. -/
def named (given : String) (s : Symbol) : Symbol :=
  if s.kind == .function then { s with name := given, source := .analysis } else s

/-- The symbols at its entry point then. -/
def curated (entry : Int) (name : Json) (symbols : List Symbol) : List Symbol :=
  match checkName name with
  | .ok given => (cleared entry name symbols).map (named given)
  | .error _ => cleared entry name symbols

/-- What is told from all others is changed where it is found. -/
theorem modify_of_unique {β : Type} {l : List β} {isThis : β → Bool}
    (unique : (l.filter isThis).length = 1) (change : β → β) :
    ∃ i, l.findIdx? isThis = some i ∧
      l.modify i change = l.map fun b => if isThis b then change b else b := by
  induction l with
  | nil => cases unique
  | cons b l ih =>
      cases hb : isThis b with
      | true =>
          rw [List.filter_cons_of_pos hb, List.length_cons, Nat.add_eq_right,
            List.length_eq_zero_iff, List.filter_eq_nil_iff] at unique
          refine ⟨0, by simp [List.findIdx?_cons, hb], ?_⟩
          rw [List.modify_zero_cons, List.map_cons, if_pos hb]
          refine congrArg (change b :: ·) ((List.map_id l).symm.trans (List.map_congr_left ?_))
          exact fun c hc => (if_neg (unique c hc)).symm
      | false =>
          rw [List.filter_cons_of_neg (by simp [hb])] at unique
          obtain ⟨i, hi, hmap⟩ := ih unique
          refine ⟨i + 1, by simp [List.findIdx?_cons, hb, hi], ?_⟩
          rw [List.modify_succ_cons, hmap, List.map_cons, if_neg (by simp [hb])]

theorem nameFunctionSymbol_eq {a : Int} {own : String} (fit : SymbolsFit a (some own) symbols)
    (address : Whole) (given : String) :
    nameFunctionSymbol address given .analysis symbols = symbols.map (named given) := by
  have unique : (symbols.filter (·.kind == .function)).length = 1 := by
    have length := congrArg List.length fit.functions
    rwa [List.length_map] at length
  obtain ⟨i, hi, hmap⟩ := modify_of_unique unique
    ({ · with name := given, source := .analysis })
  rw [nameFunctionSymbol, hi]
  exact hmap

/-- The symbols at an entry point after the function there has taken a name. -/
def christened (given : String) (symbols : List Symbol) : List Symbol :=
  (symbols.filter (!isLabelNamed given ·)).map (named given)

theorem StandsAs.rename (h : p.StandsAs entry own f symbols) {given : String}
    (hname : checkName name = .ok given) :
    Runs (renameFunction entry name .analysis) p
      (fun _ q => Redraws entry { f with name := given } (christened given symbols) [] p q ∧
        SymbolsFit entry (some given) (christened given symbols))
      fun _ _ => False := by
  have fit : SymbolsFit entry (some given) (christened given symbols) := by
    have fit := h.fit.named rfl f.entry given .analysis
    rwa [nameFunctionSymbol_eq (h.fit.filter_not_label given)] at fit
  rw [renameFunction, Runs.bind_iff, runs_ofResult, hname]
  simp only [Runs.bind_iff, Runs.get_iff, Runs.modify_iff, h.function, Option.elim_some,
    h.symbolsAt, nameFunctionSymbol_eq (h.fit.filter_not_label given)]
  refine ⟨⟨?_, h.setSymbols h.here fit, rfl, rfl⟩, fit⟩
  exact (h.editFunction ({ · with name := given })).functions

theorem Stands.rename (h : p.Stands entry f symbols) {given : String}
    (hname : checkName name = .ok given) :
    Runs (renameFunction entry name .analysis) p
      (fun _ q => Redraws entry { f with name := given } (christened given symbols) [] p q ∧
        SymbolsFit entry (some given) (christened given symbols))
      fun _ _ => False :=
  h.standsAs.rename hname

theorem renameFunction_unfit {e : Fault} (h : checkName name = .error e) :
    Runs (renameFunction entry name .analysis) p (fun _ _ => False) fun e' q => e' = e ∧ q = p := by
  rw [renameFunction, Runs.bind_iff, runs_ofResult, h]
  exact ⟨rfl, rfl⟩

/-- No label that is left when all is cleared has the name. -/
theorem christened_cleared {given : String} (hname : checkName name = .ok given) :
    christened given (cleared entry name symbols) = curated entry name symbols := by
  have free : ∀ s ∈ cleared entry name symbols, isLabelNamed given s = false := by
    intro s hs
    obtain ⟨t, ht, rfl⟩ := List.mem_map.mp hs
    have hkept := (List.mem_filter.mp ht).2
    rw [isKept_eq] at hkept
    cases hstale : isStale name t with
    | true =>
        rw [hstale, Bool.not_true, Bool.or_false, beq_iff_eq] at hkept
        simp [isLabelNamed, defaultSymbol, hkept]
    | false =>
        have hne : t.name ≠ given := by
          rintro rfl
          rw [text_of_checkName hname] at hstale
          simp [isStale] at hstale
        simp [isLabelNamed, hne]
  rw [christened, curated, hname, List.filter_eq_self.mpr fun s hs => by simp [free s hs]]

theorem kind_named (given : String) (s : Symbol) : (named given s).kind = s.kind := by
  unfold named
  split <;> rfl

theorem named_of_label {given : String} {s : Symbol} (label : s.kind = .label) :
    named given s = s := by
  simp [named, label]

/-- The labels among symbols. -/
def labels (symbols : List Symbol) : List Symbol := symbols.filter (·.kind == .label)

theorem labels_map_named (given : String) (symbols : List Symbol) :
    labels (symbols.map (named given)) = labels symbols := by
  induction symbols with
  | nil => rfl
  | cons s rest ih =>
      unfold labels at ih ⊢
      cases hk : s.kind with
      | label => simpa [kind_named, hk] using ⟨named_of_label hk, ih⟩
      | function => simpa [kind_named, hk] using ih

theorem leading_map_named (given : String) (symbols : List Symbol) :
    leading (symbols.map (named given)) = leading symbols := by
  induction symbols with
  | nil => rfl
  | cons s rest ih =>
      cases hk : s.kind with
      | label =>
          rw [List.map_cons, named_of_label hk]
          simpa [leading, List.takeWhile_cons, hk] using ih
      | function => simp [leading, kind_named, hk]

theorem labels_cleared (entry : Int) (name : Json) (symbols : List Symbol) :
    labels (cleared entry name symbols) = (labels symbols).filter (isKept name ·.name) := by
  induction symbols with
  | nil => rfl
  | cons s rest ih =>
      rw [cleared_cons]
      unfold labels at ih ⊢
      cases hk : s.kind <;> cases hs : isStale name s <;> simp [defaultSymbol, hk, ih, isKept_eq, hs]

theorem leading_cleared (entry : Int) (name : Json) (symbols : List Symbol) :
    leading (cleared entry name symbols) = (leading symbols).filter (isKept name) := by
  induction symbols with
  | nil => rfl
  | cons s rest ih =>
      rw [cleared_cons]
      unfold leading at ih ⊢
      cases hk : s.kind <;> cases hs : isStale name s <;>
        simp [defaultSymbol, hk, ih, isKept_eq, hs]

/-- Of the labels, those in the way are gone. -/
theorem labels_curated (entry : Int) (name : Json) (symbols : List Symbol) :
    labels (curated entry name symbols) = (labels symbols).filter (isKept name ·.name) := by
  rw [curated]
  split
  · rw [labels_map_named, labels_cleared]
  · exact labels_cleared entry name symbols

theorem listed_curated (entry : Int) (name : Json) (symbols : List Symbol) :
    listed (curated entry name symbols) = (listed symbols).filter fun l => isKept name l.1 := by
  show (labels (curated entry name symbols)).map _ = _
  rw [labels_curated, listed, List.filter_map]
  rfl

theorem leading_curated (entry : Int) (name : Json) (symbols : List Symbol) :
    leading (curated entry name symbols) = (leading symbols).filter (isKept name) := by
  rw [curated]
  split
  · rw [leading_map_named, leading_cleared]
  · exact leading_cleared entry name symbols

end Program

end StabsImport

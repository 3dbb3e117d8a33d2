import StabsImport.Proofs.Rounds

/-!
# Rounds over the globals

Each global gets data, in the place of all that it overlaps, and a label. A round leaves functions
and comments alone; what it leaves of the data goes by the globals and their types, and so do the
labels at each address. Main statements: `importGlobalsFrom_works`, `GlobalRound.data`,
`GlobalRound.symbolsAt`.
-/

namespace StabsImport

open Document (Variable Node)

namespace Program

variable {p q : Program} {address length : Int} {type : TypeId} {name : Json} {symbols : List Symbol}

/-! ## Data -/

/-- Data of this length may lie there: in one block, and on no function. -/
def admits (p : Program) (address length : Int) : Bool :=
  decide (0 < length) && p.isMapped address (address + length - 1) &&
    p.sites.all fun e => !bodyMeets address (address + length) e.2

theorem admits_congr (memory : q.memory = p.memory) (sites : q.sites = p.sites) :
    q.admits address length = p.admits address length := by
  rw [admits, admits, isMapped, isMapped, memory, sites]

/-- New data reaches into what lies there. -/
def overlays (e e' : Int × DataItem) : Bool := dataMeets e.1 (e.1 + e.2.length) e'

theorem all_sites (address stop : Int) : (p.sites.all fun e => !bodyMeets address stop e.2) =
    (p.functions.values.find? (bodyMeets address stop)).isNone := by
  have bare (f : Function) : bodyMeets address stop f.bare = bodyMeets address stop f := rfl
  rw [Bool.eq_iff_iff]
  simp [sites, Ledger.values, bare]

/-- Data is laid over all that it overlaps where it may lie, and refused elsewhere. -/
theorem runs_createData (positive : ∀ e ∈ p.data.entries, 0 < e.2.length) :
    Runs (createData address type length true) p
      (fun _ q => p.admits address length = true ∧ q = { p with
        data := ⟨layOver overlays p.data.entries (address, { type, length })⟩ })
      fun _ q => p.admits address length = false ∧ q = p := by
  rw [createData, Runs.bind_iff, Runs.get_iff]
  dsimp only
  rw [Runs.ite_iff]
  split
  · next hlength =>
      have refused : p.admits address length = false := by simp [admits, Int.not_lt.mpr hlength]
      rw [Runs.bind_iff, typeName, runs_view]
      split <;> exact ⟨refused, rfl⟩
  next hlength =>
  rw [Runs.ite_iff]
  split
  · next hmapped =>
      rw [Bool.not_eq_true'] at hmapped
      exact ⟨by simp [admits, hmapped], rfl⟩
  next hmapped =>
  split
  · next f hf => exact ⟨by rw [admits, all_sites, hf, Option.isNone_some, Bool.and_false], rfl⟩
  next hclear =>
  have admitted : p.admits address length = true := by
    rw [admits, all_sites, hclear]
    simpa [Int.not_le.mp hlength] using hmapped
  have free : (Ledger.mk (p.data.entries.filter (!dataMeets address (address + length) ·))).get?
      address = none := by
    refine Ledger.get?_eq_none_iff.mpr fun e he => decide_eq_false fun hsame => ?_
    obtain ⟨hmem, hapart⟩ := List.mem_filter.mp he
    have hpos := positive e hmem
    obtain rfl : e.1 = address := hsame
    simp only [dataMeets, Bool.not_eq_true', Bool.and_eq_false_iff, decide_eq_false_iff_not]
      at hapart
    omega
  split
  · next h => cases h
  · refine ⟨admitted, ?_⟩
    have laid : (Ledger.mk (p.data.entries.filter
        (!dataMeets address (address + length) ·))).put address { type, length } =
          ⟨layOver overlays p.data.entries (address, { type, length })⟩ :=
      congrArg Ledger.mk (Ledger.entries_put_of_free free { type, length })
    show ({ p with data := _ } : Program) = _
    rw [laid]

/-! ## Labels -/

theorem labelled_ne_nil (address : Whole) (given : String) (symbols : List Symbol) :
    (labelled address given symbols).isEmpty = false := by
  rcases labelled_cases address given symbols with ⟨pre, s, post, -, -, -, h⟩ | ⟨-, h⟩ <;> simp [h]

/-- The program with this label made primary. -/
def withPrimary (p : Program) (address : Int) (given : String) : Program :=
  { p with
    symbols := p.symbols.put (.ofInt address)
      (labelled (.ofInt address) given (p.symbolsAt address)) }

theorem setSymbols_labelled (p : Program) (address : Int) (given : String) :
    p.setSymbols (.ofInt address) (labelled (.ofInt address) given (p.symbolsAt address)) =
      p.withPrimary address given := by
  rw [setSymbols, labelled_ne_nil]
  rfl

/-- A label is put at the address, or the symbol of its name gets the flag. -/
theorem runs_createLabel :
    Runs (createLabel (.ofInt address) name true) p
      (fun _ q => ∃ given, checkName name = .ok given ∧ q = p.withPrimary address given)
      fun e q => checkName name = .error e ∧ q = p := by
  rw [createLabel, Runs.bind_iff, runs_ofResult]
  cases hname : checkName name with
  | error e => exact ⟨rfl, rfl⟩
  | ok given =>
      dsimp only
      rw [Runs.bind_iff, Runs.get_iff]
      dsimp only [Whole.value_ofInt]
      split
      · next i hi =>
          refine ⟨given, rfl, ?_⟩
          rw [← setSymbols_labelled, labelled, hi]
      · next hnone =>
          refine ⟨given, rfl, ?_⟩
          rw [← setSymbols_labelled, labelled, hnone]
          rfl

theorem SameTables.consistent (h : SameTables p q) (memory : q.memory = p.memory)
    {blocks : List (Int × Int)} (hc : p.Consistent blocks) : q.Consistent blocks where
  functions := hc.functions.of_sites (by rw [sites, sites, h.functions])
  symbols := by
    refine ⟨h.symbols ▸ hc.symbols.distinct, h.symbols ▸ hc.symbols.held, fun address => ?_⟩
    rw [h.function?, h.symbolsAt]
    exact hc.symbols.fit address
  data := hc.data.of_eq h.data memory

end Program

namespace Import

open Program

variable {d : Document} {pointerSize : Int} {s t u : Session} {blocks : List (Int × Int)}
  {v : Variable} {vs : List Variable}

/-! ## One global -/

/-- The data of a global, if it may lie where the global is. -/
def itemOf (p : Program) (length : TypeId → Int) (e : Variable × TypeId) :
    Option (Int × DataItem) :=
  if p.admits e.1.storage.globalAddress (length e.2) then
    some (e.1.storage.globalAddress, { type := e.2, length := length e.2 })
  else none

/-- The label that a global gets at an address. -/
def labelOf (address : Int) (v : Variable) : Option String :=
  if v.storage.globalAddress = address then (checkName v.common.name).toOption else none

/-- The label of a global is put at its address, and nowhere else. -/
theorem symbolsAt_label (p : Program) (v : Variable) (address : Int) :
    ((checkName v.common.name).toOption.elim p
      (p.withPrimary v.storage.globalAddress)).symbolsAt address =
        labelledAll (.ofInt address) (labelOf address v).toList (p.symbolsAt address) := by
  rw [labelOf]
  cases (checkName v.common.name).toOption with
  | none =>
      rw [ite_self]
      rfl
  | some given =>
      rw [Option.elim_some, withPrimary, Program.symbolsAt]
      split
      · next here =>
          subst here
          rw [Ledger.get?_put_self]
          rfl
      · next other =>
          rw [Ledger.get?_put_of_not_same _ _ (decide_eq_false fun hsame => other hsame.symm)]
          rfl

/-- What becomes of a global. -/
structure Placed (v : Variable) (s t : Session) : Prop where
  functions : t.program.functions = s.program.functions
  comments : t.program.comments = s.program.comments
  data : ∃ id, (id < t.program.arena.size ∧ t.variableLook v.type = some (t.look id)) ∧
    t.program.data.entries = (itemOf s.program t.lengthOf (v, id)).toList.foldl (layOver overlays)
      s.program.data.entries
  symbols : t.program.symbols = (checkName v.common.name).toOption.elim s.program.symbols fun given =>
    (s.program.withPrimary v.storage.globalAddress given).symbols

theorem placeData_works (hs : s.Imported d pointerSize) (hc : s.program.Consistent blocks)
    (v : Variable) (id : TypeId) :
    Works d pointerSize
      (onRejection (do
          edit (Program.createData v.storage.globalAddress id (← typeLength id) true))
        (reportFault globalsSource)) s
      (fun _ t => t.program.Consistent blocks ∧ t.program = { s.program with
          data := ⟨(itemOf s.program s.lengthOf (v, id)).toList.foldl (layOver overlays)
            s.program.data.entries⟩ }) AnyFault := by
  have laid : Runs (Program.createData v.storage.globalAddress id (s.lengthOf id) true) s.program _ _ :=
    runs_createData hc.data.positive
  have edited := Works.edit hs (keepsTypes_createData v.storage.globalAddress id (s.lengthOf id) true)
    (laid.and (createData_consistent _ _ _ _ hc))
  refine Works.onRejection (N := fun _ t => t.program = s.program ∧
    s.program.admits v.storage.globalAddress (s.lengthOf id) = false) ?_ (fun _ _ _ _ => trivial)
    fun e t ht _ he _ => ?_
  · show Works d pointerSize (edit (Program.createData v.storage.globalAddress id (s.lengthOf id) true))
      s _ _
    refine edited.mono (fun _ t _ _ h => ?_) fun _ t _ _ h => ?_
    · obtain ⟨-, ⟨admitted, hp⟩, hc⟩ := h
      refine ⟨hc, ?_⟩
      rw [hp, itemOf, if_pos admitted]
      rfl
    · exact ⟨h.2.1.2, h.2.1.1⟩
  · refine (Works.report ht _ e).mono (fun _ u _ _ hu => ?_) fun _ _ _ _ h => h
    have same : u.program = s.program := by rw [hu, ← he.1]
    rw [same, itemOf, if_neg (by simp [he.2])]
    exact ⟨hc, rfl⟩

theorem placeLabel_works (hs : s.Imported d pointerSize) (hc : s.program.Consistent blocks)
    (v : Variable) :
    Works d pointerSize
      (onRejection
        (do discard (edit (Program.createLabel (.ofInt v.storage.globalAddress) v.common.name true)))
        (reportFault globalsSource)) s
      (fun _ t => t.program.Consistent blocks ∧
        t.program = (checkName v.common.name).toOption.elim s.program
          (s.program.withPrimary v.storage.globalAddress)) AnyFault := by
  have edited := Works.edit hs
    (keepsTypes_createLabel (.ofInt v.storage.globalAddress) v.common.name true)
    (runs_createLabel.and (createLabel_consistent _ _ _ hc))
  refine Works.onRejection (N := fun e t => checkName v.common.name = .error e ∧
    t.program = s.program) ?_ (fun _ _ _ _ => trivial) fun e t ht _ he _ => ?_
  · refine Works.bind (edited.mono (fun _ _ _ _ h => h) fun _ _ _ _ h => h.2.1) fun _ t ht _ h => ?_
    obtain ⟨-, ⟨given, hname, hp⟩, hc⟩ := h
    refine Works.pure ht ⟨hc, ?_⟩
    rw [hp, hname]
    rfl
  · refine (Works.report ht _ e).mono (fun _ u _ _ hu => ?_) fun _ _ _ _ h => h
    have same : u.program = s.program := by rw [hu, ← he.2]
    rw [same, he.1]
    exact ⟨hc, rfl⟩

theorem placeGlobal_works (numbered : d.IsNumbered) (hs : s.Imported d pointerSize)
    (hc : s.program.Consistent blocks) (typed : v.type.WellTyped) (held : d.Holds v.type) :
    Works d pointerSize (placeGlobal v) s
      (fun _ t => t.program.Consistent blocks ∧ Placed v s t) AnyFault := by
  refine Works.bind (Works.inside hs 1 (Works.variableTypeOf numbered hs typed held))
    fun id t₁ h₁ up₁ hid => ?_
  obtain ⟨⟨hlt, hlook⟩, same⟩ := hid
  refine Works.bind (placeData_works h₁ (same.consistent up₁.memory hc) v id)
    fun _ t₂ h₂ up₂ hdata => ?_
  obtain ⟨hc, data⟩ := hdata
  refine Works.bind (placeLabel_works h₂ hc v) fun _ t₃ h₃ up₃ hlabel => ?_
  obtain ⟨hc, label⟩ := hlabel
  refine (Works.count h₃ _).mono (fun _ t _ up₄ ht => ?_) fun _ _ _ _ h => h
  have up := (up₂.trans up₃).trans up₄
  rw [show t₃.program = t.program by rw [ht]] at hc label
  refine ⟨hc, ?_⟩
  have rest : t.program.functions = t₂.program.functions ∧ t.program.comments = t₂.program.comments ∧
      t.program.data = t₂.program.data := by
    rw [label]
    cases (checkName v.common.name).toOption <;> exact ⟨rfl, rfl, rfl⟩
  obtain ⟨functions, comments, laid⟩ := rest
  have symbols : t₂.program.symbols = s.program.symbols := by
    rw [data]
    exact same.symbols
  have admitted : t₁.program.admits v.storage.globalAddress (t₁.lengthOf id) =
      s.program.admits v.storage.globalAddress (t.lengthOf id) := by
    rw [up.lengthOf hlt]
    exact admits_congr up₁.memory (by rw [sites, sites, same.functions])
  refine ⟨?_, ?_, ⟨id, ⟨Nat.lt_of_lt_of_le hlt up.size_le, ?_⟩, ?_⟩, ?_⟩
  · rw [functions, data, same.functions]
  · rw [comments, data, same.comments]
  · rw [up.look hlt]
    exact up.variableLook h₁.sound hlook
  · rw [laid, data, itemOf, itemOf, admitted, up.lengthOf hlt, same.data]
  · rw [label]
    cases (checkName v.common.name).toOption with
    | none => exact symbols
    | some given => simp only [Option.elim_some, withPrimary, Program.symbolsAt, symbols]

namespace Placed

theorem before (h : Placed v s t) {s' : Session} (program : s.program = s'.program) :
    Placed v s' t :=
  ⟨program ▸ h.functions, program ▸ h.comments, program ▸ h.data, program ▸ h.symbols⟩

theorem sites (h : Placed v s t) : t.program.sites = s.program.sites := by
  rw [Program.sites, Program.sites, h.functions]

theorem symbolsAt (h : Placed v s t) (address : Int) : t.program.symbolsAt address =
    labelledAll (.ofInt address) (labelOf address v).toList (s.program.symbolsAt address) := by
  rw [← symbolsAt_label, Program.symbolsAt, Program.symbolsAt, h.symbols]
  cases (checkName v.common.name).toOption <;> rfl

theorem held (h : Placed v s t) {address : Int}
    (there : s.program.symbols.get? (.ofInt address) ≠ none ∨ labelOf address v ≠ none) :
    t.program.symbols.get? (.ofInt address) ≠ none := by
  rw [labelOf] at there
  rw [h.symbols]
  cases hname : (checkName v.common.name).toOption with
  | none =>
      rw [hname, ite_self] at there
      exact there.resolve_right fun hn => hn rfl
  | some given =>
      rcases there with there | there
      · exact Ledger.get?_put_ne_none there _ _
      · obtain rfl : v.storage.globalAddress = address := by
          by_contra hne
          rw [if_neg hne] at there
          exact there rfl
        rw [Option.elim_some, withPrimary, Ledger.get?_put_self]
        exact Option.some_ne_none _

theorem keys (h : Placed v s t)
    (there : ∀ address, labelOf address v ≠ none → s.program.symbols.get? (.ofInt address) ≠ none) :
    t.program.symbols.keys = s.program.symbols.keys := by
  rw [h.symbols]
  cases hname : (checkName v.common.name).toOption with
  | none => rfl
  | some given =>
      refine Ledger.keys_put_of_held (there v.storage.globalAddress ?_) _
      rw [labelOf, if_pos rfl, hname]
      exact Option.some_ne_none given

end Placed

/-! ## A round -/

/-- The globals are placed one after another, none of them being left out. -/
inductive GlobalRound (d : Document) (pointerSize : Int) (blocks : List (Int × Int)) :
    List Variable → Session → Session → Prop where
  | done {s t : Session} (same : SameTables s.program t.program) (upholds : Upholds s t) :
      GlobalRound d pointerSize blocks [] s t
  | next {v : Variable} {vs : List Variable} {s t u : Session} (placed : Placed v s t)
      (imported : t.Imported d pointerSize) (consistent : t.program.Consistent blocks)
      (upholds : Upholds s t) (later : GlobalRound d pointerSize blocks vs t u) :
      GlobalRound d pointerSize blocks (v :: vs) s u

theorem GlobalRound.before (h : GlobalRound d pointerSize blocks vs s t) {s' : Session}
    (program : s.program = s'.program) (up : Upholds s' s) :
    GlobalRound d pointerSize blocks vs s' t := by
  cases h with
  | done same hup => exact .done (program ▸ same) (up.trans hup)
  | next placed imported consistent hup later =>
      exact .next (placed.before program) imported consistent (up.trans hup) later

/-- The globals of a list that have an address. -/
def addressed (vs : List Variable) : List Variable := vs.filter (0 ≤ ·.storage.globalAddress)

/-- Unless the work is cancelled, a round is made, and the types of its globals are asked for. -/
theorem importGlobalsFrom_works (numbered : d.IsNumbered) (hs : s.Imported d pointerSize)
    (hc : s.program.Consistent blocks) (typed : ∀ v ∈ vs, v.type.WellTyped ∧ d.Holds v.type) :
    Works d pointerSize (importGlobalsFrom vs) s
      (fun _ t => t.program.Consistent blocks ∧ (t.monitor.isCancelled = false →
        GlobalRound d pointerSize blocks (addressed vs) s t ∧
          Answered ((addressed vs).map askOf) s t)) AnyFault := by
  induction vs generalizing s with
  | nil =>
      exact Works.pure hs ⟨hc, fun _ => ⟨.done (.refl _) (.refl s), .done (Stepwise.refl s)⟩⟩
  | cons v rest ih =>
      obtain ⟨⟨htype, hheld⟩, hrest⟩ := List.forall_mem_cons.mp typed
      rw [importGlobalsFrom_step]
      refine Works.bind (Works.isCancelled hs) fun cancelled t ht hup hcancelled => ?_
      obtain ⟨hsame, hcancelled⟩ := hcancelled
      have program : t.program = s.program := by rw [hsame]
      have grounds : SameGrounds s t := hsame ▸ .aside s s.journal t.monitor s.stats
      cases cancelled with
      | true =>
          refine Works.pure ht ⟨program ▸ hc, fun hgoes => ?_⟩
          rw [hcancelled rfl] at hgoes
          cases hgoes
      | false =>
          unfold takeUpGlobal
          by_cases haddress : v.storage.globalAddress ≥ 0
          · rw [if_pos haddress]
            refine Works.bind (((placeGlobal_works numbered ht (program ▸ hc) htype hheld).and
              (placeGlobal_consults v t)).mono (fun _ _ _ _ h => h) fun _ _ _ _ h => h.1)
              fun _ u hu hup' h => ?_
            obtain ⟨hplaced, answered⟩ := h
            refine (ih hu hplaced.1 hrest).mono (fun _ w _ _ hw => ?_) fun _ _ _ _ h => h
            refine ⟨hw.1, fun hgoes => ?_⟩
            rw [addressed, List.filter_cons_of_pos (by simpa using haddress)]
            obtain ⟨later, answers⟩ := hw.2 hgoes
            exact ⟨.next (hplaced.2.before program) hu hplaced.1 (hup.trans hup') later,
              (answered.before grounds).append answers⟩
          · rw [if_neg haddress]
            refine (ih ht (program ▸ hc) hrest).mono (fun _ w _ _ hw => ?_) fun _ _ _ _ h => h
            refine ⟨hw.1, fun hgoes => ?_⟩
            rw [addressed, List.filter_cons_of_neg (by simpa using haddress)]
            obtain ⟨later, answers⟩ := hw.2 hgoes
            exact ⟨later.before program hup, answers.before grounds⟩

/-- The data of globals with these types, as far as it may lie where they are. -/
def itemsOf (p : Program) (length : TypeId → Int) (vs : List Variable) (ids : List TypeId) :
    List (Int × DataItem) :=
  (vs.zip ids).flatMap fun e => (itemOf p length e).toList

theorem itemsOf_congr {p q : Program} {length length' : TypeId → Int} {ids : List TypeId}
    (memory : q.memory = p.memory) (sites : q.sites = p.sites)
    (lengths : ∀ id ∈ ids, length' id = length id) :
    itemsOf q length' vs ids = itemsOf p length vs ids := by
  unfold itemsOf
  refine List.flatMap_congr fun e he => ?_
  rw [itemOf, itemOf, lengths e.2 (List.of_mem_zip (show (e.1, e.2) ∈ vs.zip ids from he)).2,
    admits_congr memory sites]

theorem type_of_mem_itemsOf {p : Program} {length : TypeId → Int} {ids : List TypeId}
    {e : Int × DataItem} (h : e ∈ itemsOf p length vs ids) : e.2.type ∈ ids := by
  obtain ⟨g, hg, he⟩ := List.mem_flatMap.mp h
  rw [itemOf] at he
  split at he
  · obtain rfl := List.mem_singleton.mp he
    exact (List.of_mem_zip (show (g.1, g.2) ∈ vs.zip ids from hg)).2
  · cases he

/-- The labels that globals get at an address, in their order. -/
def labelsAt (vs : List Variable) (address : Int) : List String := vs.filterMap (labelOf address)

namespace GlobalRound

theorem upholds (h : GlobalRound d pointerSize blocks vs s t) : Upholds s t := by
  induction h with
  | done _ hup => exact hup
  | next _ _ _ hup _ ih => exact hup.trans ih

theorem functions (h : GlobalRound d pointerSize blocks vs s t) :
    t.program.functions = s.program.functions := by
  induction h with
  | done same _ => exact same.functions
  | next placed _ _ _ _ ih => exact ih.trans placed.functions

theorem comments (h : GlobalRound d pointerSize blocks vs s t) :
    t.program.comments = s.program.comments := by
  induction h with
  | done same _ => exact same.comments
  | next placed _ _ _ _ ih => exact ih.trans placed.comments

/-- The data of the globals lies over all that was there. -/
theorem data (h : GlobalRound d pointerSize blocks vs s t) : ∃ ids,
    t.Shows (fun v => t.variableLook v.type) vs ids ∧ t.program.data.entries =
      (itemsOf s.program t.lengthOf vs ids).foldl (layOver overlays) s.program.data.entries := by
  induction h with
  | done same _ => exact ⟨[], .nil, congrArg Ledger.entries same.data⟩
  | @next v vs s t u placed imported _ hup later ih =>
      obtain ⟨id, ⟨hlt, hlook⟩, hdata⟩ := placed.data
      obtain ⟨ids, hids, hrest⟩ := ih
      have onward := later.upholds
      refine ⟨id :: ids, .cons ⟨Nat.lt_of_lt_of_le hlt onward.size_le, ?_⟩ hids, ?_⟩
      · rw [onward.look hlt]
        exact onward.variableLook imported.sound hlook
      · have first : itemOf s.program u.lengthOf (v, id) = itemOf s.program t.lengthOf (v, id) := by
          rw [itemOf, itemOf, onward.lengthOf hlt]
        have rest : itemsOf t.program u.lengthOf vs ids = itemsOf s.program u.lengthOf vs ids :=
          itemsOf_congr hup.memory placed.sites fun _ _ => rfl
        rw [hrest, hdata, rest, ← first, ← List.foldl_append]
        rfl

theorem symbolsAt (h : GlobalRound d pointerSize blocks vs s t) (address : Int) :
    t.program.symbolsAt address =
      labelledAll (.ofInt address) (labelsAt vs address) (s.program.symbolsAt address) := by
  induction h with
  | done same _ => exact congrFun same.symbolsAt address
  | @next v vs s t u placed _ _ _ _ ih =>
      have split : labelsAt (v :: vs) address = (labelOf address v).toList ++ labelsAt vs address := by
        rw [labelsAt, List.filterMap_cons]
        cases labelOf address v <;> rfl
      rw [ih, placed.symbolsAt, split, labelledAll, labelledAll, labelledAll, List.foldl_append]

theorem held (h : GlobalRound d pointerSize blocks vs s t) {address : Int}
    (there : s.program.symbols.get? (.ofInt address) ≠ none ∨ labelsAt vs address ≠ []) :
    t.program.symbols.get? (.ofInt address) ≠ none := by
  induction h with
  | done same _ =>
      rw [same.symbols]
      exact there.resolve_right fun hn => hn rfl
  | @next v vs s t u placed _ _ _ _ ih =>
      refine ih ?_
      cases hv : labelOf address v with
      | some given => exact .inl (placed.held (.inr (by simp [hv])))
      | none =>
          rw [labelsAt, List.filterMap_cons, hv] at there
          exact there.imp_left fun hs => placed.held (.inl hs)

/-- Where all labels stand at addresses that have symbols, no address is added. -/
theorem keys (h : GlobalRound d pointerSize blocks vs s t)
    (there : ∀ address, labelsAt vs address ≠ [] →
      s.program.symbols.get? (.ofInt address) ≠ none) :
    t.program.symbols.keys = s.program.symbols.keys := by
  induction h with
  | done same _ => rw [same.symbols]
  | @next v vs s t u placed _ _ _ _ ih =>
      have first : ∀ address, labelOf address v ≠ none →
          s.program.symbols.get? (.ofInt address) ≠ none := fun address hv => by
        refine there address ?_
        obtain ⟨given, hgiven⟩ := Option.ne_none_iff_exists'.mp hv
        rw [labelsAt, List.filterMap_cons, hgiven]
        exact List.cons_ne_nil _ _
      refine (ih fun address hn => placed.held (.inl (there address ?_))).trans (placed.keys first)
      rw [labelsAt, List.filterMap_cons]
      split
      · exact hn
      · exact List.cons_ne_nil _ _

theorem holdsTypes (h : GlobalRound d pointerSize blocks vs s t) (hs : HoldsTypes s.program) :
    HoldsTypes t.program where
  functions := by
    rw [h.functions]
    exact fun f hf id hid => Nat.lt_of_lt_of_le (hs.functions f hf id hid) h.upholds.size_le
  data e he := by
    obtain ⟨ids, hids, hdata⟩ := h.data
    rw [hdata, foldl_layOver, List.mem_append] at he
    rcases he with he | he
    · exact Nat.lt_of_lt_of_le (hs.data e (List.mem_filter.mp he).1) h.upholds.size_le
    · exact hids.lt_size (type_of_mem_itemsOf (mem_of_mem_survivors he))

end GlobalRound

end Import

end StabsImport

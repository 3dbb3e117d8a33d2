import StabsImport.Proofs.Telling

/-!
# Definitions taken up

A definition that is taken up tells the function that stands at its low address, which is made if
there is none. It makes none, and leaves the program as it was, where the body would meet another.
Main statement: `importFunction_works`.
-/

namespace StabsImport

open Document (FunctionDefinition SourceFile Node)

namespace Program

variable {p q : Program} {entry low : Int} {high : Whole} {f g : Function}
  {symbols symbols' : List Symbol} {comments : List ((Int × CommentKind) × String)}
  {blocks : List (Int × Int)} {name : Json}

theorem Consistent.stands (h : p.Consistent blocks) (hf : p.function? entry = some f) :
    p.Stands entry f (p.symbolsAt entry) := by
  have fit := h.symbols.fit entry
  rw [hf, Option.map_some] at fit
  have stands := StandsAs.of_fit hf (h.entry_eq hf) fit
  exact ⟨hf, stands.held, stands.here, fit⟩

/-- A function that keeps its body may be told anew. -/
theorem Consistent.redraws (h : p.Consistent blocks) (hp : p.Stands entry f symbols)
    (drawn : Redraws entry g symbols' comments p q) (bare : g.bare = f.bare)
    (fit : SymbolsFit entry (some g.name) symbols') (memory : q.memory = p.memory) :
    q.Consistent blocks where
  functions := by
    refine h.functions.of_sites ?_
    rw [sites, sites, drawn.functions]
    exact Ledger.map_put_of_held hp.function fun k => by rw [bare]
  symbols := by
    have some : symbols'.isEmpty = false := by
      rw [List.isEmpty_eq_false_iff]
      rintro rfl
      obtain ⟨s, hs, -⟩ := fit.exists_function rfl
      cases hs
    refine h.symbols.setSymbols (.ofInt entry) symbols' ?_ (fun other hne => ?_) ?_
    · rw [drawn.symbols, Program.setSymbols, some]
      rfl
    · rw [drawn.function?_of_ne hne]
    · rw [Whole.value_ofInt, drawn.function?]
      exact fit
  data := h.data.of_eq drawn.data memory

/-- Where a function stands the bodies stay as they are. -/
theorem Redraws.sites (drawn : Redraws entry g symbols comments p q)
    (hf : p.function? entry = some f) (bare : g.bare = f.bare) : q.sites = p.sites := by
  rw [Program.sites, Program.sites, drawn.functions]
  exact Ledger.map_put_of_held hf fun k => by rw [bare]

/-! ## Making a function -/

/-- Where the body ends of a function that is made for a range: an empty one has its first address. -/
def lastOf (low : Int) (high : Whole) : Whole := if high.value < low then .ofInt low else high

/-- A body would meet one that is there. -/
def Meets (low : Int) (last : Whole) (p : Program) : Prop :=
  ∃ e ∈ p.sites, bodiesMeet (.ofInt low) (.whole last) e.2 = true

/-- A function was made of which nothing is told yet but a name, and no other if that is refused. -/
structure Makes (low : Int) (last : Whole) (name : Json) (f : Function) (symbols : List Symbol)
    (p q : Program) : Prop where
  free : p.function? low = none
  clear : ¬ Meets low last p
  redraws : Redraws low f symbols [] p q
  stands : q.Stands low f symbols
  blank : f = { name := f.name, entry := .ofInt low, body := (.ofInt low, .whole last) }
  named : ∀ {e}, checkName name = .error e → f.name = defaultName low

theorem meets_iff {last : Whole} : Meets low last p ↔
    ∃ g ∈ p.functions.values, bodiesMeet (.ofInt low) (.whole last) g = true := by
  simp only [Meets, sites, Ledger.values, List.mem_map]
  constructor
  · rintro ⟨_, ⟨e, he, rfl⟩, h⟩
    exact ⟨e.2, ⟨e, he, rfl⟩, h⟩
  · rintro ⟨_, ⟨e, he, rfl⟩, h⟩
    exact ⟨_, ⟨e, he, rfl⟩, h⟩

/-- A function under its default name. -/
def blankFunction (low : Int) (last : Whole) : Function :=
  { name := defaultName low, entry := .ofInt low, body := (.ofInt low, .whole last) }

def blankSymbol (low : Int) : Symbol :=
  { address := .ofInt low, name := defaultName low, kind := .function, source := .default,
    primary := true }

/-- The program with such a function and its symbol. -/
def withBlank (p : Program) (low : Int) (last : Whole) : Program :=
  { p with functions := p.functions.put low (blankFunction low last) : Program }.setSymbols
    (.ofInt low) (withSymbol (p.symbolsAt low) (blankSymbol low))

theorem Consistent.makes (h : p.Consistent blocks) {last : Whole} (free : p.function? low = none)
    (clear : ¬ Meets low last p) (name : Json) :
    Makes low last name (blankFunction low last) (withSymbol (p.symbolsAt low) (blankSymbol low)) p
      (p.withBlank low last) := by
  have redraws : Redraws low (blankFunction low last)
      (withSymbol (p.symbolsAt low) (blankSymbol low)) [] p (p.withBlank low last) := by
    have some : (withSymbol (p.symbolsAt low) (blankSymbol low)).isEmpty = false := by
      simp [withSymbol]
    refine ⟨rfl, ?_, rfl, rfl⟩
    rw [withBlank, Program.setSymbols, some]
    rfl
  have fit := h.symbols.fit low
  rw [free] at fit
  have fit := fit.withFunction (s := blankSymbol low) rfl rfl
  exact ⟨free, clear, redraws, ⟨redraws.function?, redraws.held, rfl, fit⟩, rfl, fun _ => rfl⟩

/-- The function is there, and has another name. -/
theorem Makes.renamed {last : Whole} {r : Program} (h : Makes low last name f symbols p q)
    {given : String} (hname : checkName name = .ok given)
    (drawn : Redraws low { f with name := given } symbols' [] q r)
    (fit : SymbolsFit low (some given) symbols') :
    Makes low last name { f with name := given } symbols' p r where
  free := h.free
  clear := h.clear
  redraws := h.redraws.trans drawn
  stands := h.stands.drawn drawn h.stands.here fit
  blank := by rw [h.blank]
  named he := by
    rw [hname] at he
    cases he

/-- A function is made unless its body would meet another. It stays, under its default name, when the
name that it was to get is refused. -/
theorem createFunction_draws (h : p.Consistent blocks) (free : p.function? low = none)
    (fit : name.IsName) {last : Whole} (span : low ≤ last.value) :
    Runs (createFunction name (.ofInt low) (some (.ofInt low, .whole last)) .analysis) p
      (fun _ q => ∃ f symbols, Makes low last name f symbols p q)
      fun e q => e.isRejection = true ∧
        (Meets low last p ∧ q = p ∨ ∃ f symbols, Makes low last name f symbols p q) := by
  have proper : ((Bound.whole last).lt (.whole (.ofInt low)) ||
      !((Bound.whole (.ofInt low)).le (.whole (.ofInt low)) &&
        (Bound.whole (.ofInt low)).le (.whole last))) = false := by
    rw [Bound.whole_lt, Bound.le_whole, Bound.whole_le, Bound.le_whole _ last]
    show ((Bound.ofInt last.value).lt (.ofInt low) ||
      !((Bound.ofInt low).le (.ofInt low) && (Bound.ofInt low).le (.ofInt last.value))) = false
    simp [span]
  have absent : ¬ p.functions.contains (Whole.ofInt low).value = true := by
    rw [Ledger.contains, show p.functions.get? (Whole.ofInt low).value = none from free]
    exact Bool.false_ne_true
  unfold createFunction
  dsimp only [Option.getD_some]
  rw [Runs.ite_iff, proper, if_neg Bool.false_ne_true, Runs.bind_iff, Runs.get_iff, Runs.ite_iff,
    if_neg absent, Runs.bind_iff, Runs.get_iff]
  split
  · next g hg =>
      exact ⟨rfl, .inl
        ⟨meets_iff.mpr ⟨g, List.mem_of_find?_eq_some hg, List.find?_some hg⟩, rfl⟩⟩
  next hclear =>
  have clear : ¬ Meets low last p := fun hm => by
    obtain ⟨g, hg, hmeets⟩ := meets_iff.mp hm
    exact absurd hmeets (List.find?_eq_none.mp hclear g hg)
  have made := h.makes free clear name
  rw [setFunction, Runs.bind_iff, Runs.modify_iff, addSymbol, Runs.bind_iff, Runs.modify_iff,
    Runs.ite_iff]
  split
  · cases hname : checkName name with
    | ok given =>
        exact Runs.mono (made.stands.rename hname)
          (fun _ q hq => ⟨_, _, made.renamed hname hq.1 hq.2⟩) fun _ _ h => h.elim
    | error e =>
        refine Runs.mono (renameFunction_unfit hname) (fun _ _ h => h.elim) fun _ q hq => ?_
        rw [hq.1, hq.2]
        exact ⟨refused_of_checkName fit hname, .inr ⟨_, _, made⟩⟩
  · exact ⟨_, _, made⟩

/-- A function is made for a range, without the name if the range is empty. -/
theorem createFunction_span (h : p.Consistent blocks) (free : p.function? low = none)
    (fit : name.IsName) (high : Whole) :
    Runs (if (Bound.whole high).lt (.whole (.ofInt low)) then
        createFunction .null (.ofInt low) none .analysis
      else createFunction name (.ofInt low) (some (.ofInt low, .whole high)) .analysis) p
      (fun _ q => ∃ f symbols, Makes low (lastOf low high) name f symbols p q)
      fun e q => e.isRejection = true ∧ (Meets low (lastOf low high) p ∧ q = p ∨
        ∃ f symbols, Makes low (lastOf low high) name f symbols p q) := by
  have empty : (Bound.whole high).lt (.whole (.ofInt low)) = decide (high.value < low) := by
    rw [Bound.whole_lt]
    exact Bound.lt_ofInt _ _
  rw [Runs.ite_iff, empty, lastOf]
  by_cases hlt : high.value < low
  · have unnamed {f : Function} {symbols : List Symbol} {q : Program}
        (made : Makes low (.ofInt low) .null f symbols p q) :
        ∃ f symbols, Makes low (.ofInt low) name f symbols p q :=
      ⟨f, symbols, { made with named := fun _ => made.named rfl }⟩
    rw [if_pos (decide_eq_true hlt), if_pos hlt]
    have span : low ≤ (Whole.ofInt low).value := Int.le_refl low
    refine Runs.mono (createFunction_draws h free (.inl rfl) span)
      (fun _ q hq => ?_) fun _ q hq => hq.imp_right (Or.imp_right fun hq => ?_)
    · obtain ⟨f, symbols, made⟩ := hq
      exact unnamed made
    · obtain ⟨f, symbols, made⟩ := hq
      exact unnamed made
  · rw [if_neg (by simpa using hlt), if_neg hlt]
    exact createFunction_draws h free fit (Int.not_lt.mp hlt)

end Program

namespace Import

open Program

variable {d : Document} {pointerSize : Int} {s t u : Session} {x : FunctionDefinition}
  {file : SourceFile} {blocks : List (Int × Int)} {bad : Fault → Session → Prop}

/-- A function stands there, or one is made, unless its body would meet another. -/
theorem findOrMake_works (hs : s.Imported d pointerSize) (h : s.program.Consistent blocks)
    (hname : x.common.name.IsName) (low : Int) (high : Whole) :
    Works d pointerSize (findOrMake x (.whole (.ofInt low)) (.whole high)) s
      (fun found t => t.program.Consistent blocks ∧
        (found = none ∧ SameTables s.program t.program ∧ s.program.function? low = none ∧
            Meets low (lastOf low high) s.program ∨
          found = some low ∧ ∃ f symbols, Draws low f symbols [] s t ∧
            (s.program.function? low = some f ∧ s.program.symbolsAt low = symbols ∨
              Makes low (lastOf low high) x.common.name f symbols s.program t.program))) bad := by
  have found {p : Program} {f : Function} (hf : p.function? low = some f) :
      foundAt p (.whole (.ofInt low)) = some low := by
    show (some low).filter _ = _
    rw [Option.filter_some, if_pos]
    rw [Ledger.contains, show p.functions.get? low = some f from hf]
    rfl
  have absent {p : Program} (hf : p.function? low = none) :
      foundAt p (.whole (.ofInt low)) = none := by
    show (some low).filter _ = _
    rw [Option.filter_some, if_neg]
    rw [Ledger.contains, show p.functions.get? low = none from hf]
    exact Bool.false_ne_true
  rw [Works, runs_findOrMake]
  rcases hf : s.program.function? low with _ | f
  · rw [absent hf]
    have kept : KeepsTypes (if (Bound.whole high).lt (.whole (.ofInt low)) then
        createFunction .null (.ofInt low) none .analysis
      else createFunction x.common.name (.ofInt low) (some (.ofInt low, .whole high)) .analysis) :=
      .ite (keepsTypes_createFunction _ _ _ _) (keepsTypes_createFunction _ _ _ _)
    have lasts : KeepsConsistent (if (Bound.whole high).lt (.whole (.ofInt low)) then
        createFunction .null (.ofInt low) none .analysis
      else createFunction x.common.name (.ofInt low) (some (.ofInt low, .whole high)) .analysis) := by
      split
      · exact createFunction_consistent _ _ _ _
      · exact createFunction_consistent _ _ _ _
    have made {f : Function} {symbols : List Symbol} {t u : Session}
        (makes : Makes low (lastOf low high) x.common.name f symbols s.program t.program)
        (same : u.program = t.program) :
        foundAt u.program (.whole (.ofInt low)) = some low ∧
          ∃ f symbols, Draws low f symbols [] s u ∧
            (none = some f ∧ s.program.symbolsAt low = symbols ∨
              Makes low (lastOf low high) x.common.name f symbols s.program u.program) := by
      rw [same]
      refine ⟨found makes.redraws.function?, f, symbols, ?_, .inr makes⟩
      exact ⟨same ▸ makes.redraws, same ▸ makes.stands⟩
    have edited := Works.edit hs kept ((createFunction_span h hf hname high).and (lasts h))
    refine Runs.mono edited (fun _ t ht => ?_) fun e t ht => ?_
    · obtain ⟨ht, hup, -, ⟨f, symbols, makes⟩, hc⟩ := ht
      exact ⟨ht, hup, hc, .inr (made makes rfl)⟩
    · obtain ⟨ht, hup, -, ⟨rejected, hq⟩, hc⟩ := ht
      rw [rejected, if_pos rfl]
      have reported (message : String) : Works d pointerSize (diagnose functionsSource message) t
          (fun _ u => u = { t with journal := u.journal }) bad :=
        Works.diagnose ht functionsSource message
      refine Runs.mono (reported _) (fun _ u hu => ?_) fun e u hu => ?_
      · obtain ⟨hu, hup', hsame⟩ := hu
        have same : u.program = t.program := by rw [hsame]
        refine ⟨hu, hup.trans hup', same ▸ hc, ?_⟩
        rcases hq with ⟨meets, unchanged⟩ | ⟨f, symbols, makes⟩
        · rw [same, unchanged]
          exact .inl ⟨absent hf, .refl _, rfl, meets⟩
        · exact .inr (made makes same)
      · exact ⟨hu.1, hup.trans hu.2.1, hu.2.2⟩
  · rw [found hf]
    exact ⟨hs, .refl s, h, .inr ⟨rfl, f, _, .refl (h.stands hf), .inl ⟨rfl, rfl⟩⟩⟩

/-! ## A definition taken up -/

/-- No function stands at the start of a definition, and the body of one would meet another. -/
def Blocked (x : FunctionDefinition) (p : Program) : Prop :=
  ∃ low high, bodyOf x = .ok (.whole (.ofInt low), .whole high) ∧ p.function? low = none ∧
    Meets low (lastOf low high) p

/-- Nothing is done for a definition. -/
def Idle (x : FunctionDefinition) (p : Program) : Prop := isComplete x = false ∨ Blocked x p

/-- What becomes of a definition that is taken up. -/
inductive TakenUp (x : FunctionDefinition × SourceFile) (s t : Session) : Prop where
  | passed (idle : Idle x.1 s.program) (same : SameTables s.program t.program)
  | told {entry : Int} {f : Function} {symbols : List Symbol} {τ : Typing}
      (starts : StartsAt x.1 entry)
      (origin : s.program.function? entry = some f ∧ s.program.symbolsAt entry = symbols ∨
        s.program.function? entry = none ∧ ¬ Blocked x.1 s.program)
      (fits : t.Fits x.1 τ)
      (draws : Draws entry (τ.told t.program.convention t.lengthOf x.1 x.2 f)
        (curated entry x.1.common.name symbols) (assignments s.outputLines s.markInlined x.1 x.2) s t)

theorem TakenUp.after {x : FunctionDefinition × SourceFile} (h : TakenUp x s t) (ht : t.Sound)
    (up : Upholds t u) (same : u.program = t.program) : TakenUp x s u := by
  have tables : SameTables t.program u.program := by
    rw [same]
    exact .refl _
  have lengths : u.lengthOf = t.lengthOf := by
    funext id
    rw [Session.lengthOf, same]
  cases h with
  | passed idle unchanged => exact .passed idle (unchanged.trans tables)
  | told starts origin fits draws =>
      refine .told starts origin ((up.recalls ht).fits fits) ?_
      rw [same, lengths]
      exact draws.before tables

theorem startsAt_iff {low entry : Int} {last : Bound}
    (hbody : bodyOf x = .ok (.whole (.ofInt low), last)) : StartsAt x entry ↔ entry = low := by
  constructor
  · rintro ⟨low', last', hbody', hlow⟩
    rw [hbody] at hbody'
    cases hbody'
    exact (Option.some.inj hlow).symm
  · rintro rfl
    exact ⟨_, _, hbody, rfl⟩

/-- A function of which nothing is told is as good as one that the definition told. -/
theorem Drafted.of_makes {p q : Program} {low : Int} {last : Whole} {f : Function}
    {symbols : List Symbol} (h : Makes low last x.common.name f symbols p q) :
    Drafted pointerSize x f where
  name he := by
    rw [h.stands.here]
    exact h.named he
  returns _ := by rw [h.blank]
  undeclared _ := by rw [h.blank]
  refused _ _ := by rw [h.blank]
  named v hv := by
    rw [h.blank] at hv
    cases hv
  ordered := by
    rw [h.blank]
    exact .nil
  locals v hv := by
    rw [h.blank] at hv
    cases hv

/-- A definition with a range tells its function, or is passed over. Which of both it was is told by
whether there is a function then. -/
theorem importFunction_works (numbered : d.IsNumbered) (hs : s.Imported d pointerSize)
    (h : s.program.Consistent blocks) (hx : IsDefinition d x) (complete : isComplete x = true)
    (drafted : ∀ {entry f}, StartsAt x entry → s.program.function? entry = some f →
      Drafted pointerSize x f) :
    Works d pointerSize (importFunction x file) s
      (fun made t => t.program.Consistent blocks ∧ TakenUp (x, file) s t ∧
        (made = true ↔ ∃ entry, StartsAt x entry ∧ t.program.function? entry ≠ none)) AnyFault := by
  obtain ⟨low, high, hbody⟩ := bodyOf_whole hx.typed complete
  have starts : StartsAt x low := (startsAt_iff hbody).mpr rfl
  rw [importFunction_eq, hbody, pure_bind]
  refine Works.bind (findOrMake_works hs h hx.typed.name low high) fun found t ht hup hfound => ?_
  obtain ⟨hc, ⟨rfl, same, free, meets⟩ | ⟨rfl, f, symbols, draws, origin⟩⟩ := hfound
  · refine Works.pure ht ⟨hc, .passed (.inr ⟨low, high, hbody, free, meets⟩) same, ?_⟩
    refine iff_of_false Bool.false_ne_true ?_
    rintro ⟨entry, hentry, there⟩
    rw [(startsAt_iff hbody).mp hentry, same.function?] at there
    exact there free
  · have hdrafted : Drafted pointerSize x f := origin.elim (fun there => drafted starts there.1) .of_makes
    refine (describe_works numbered ht draws.stands hx hdrafted).mono
      (fun made u _ hup' hu => ?_) fun _ _ _ _ h => h
    obtain ⟨rfl, τ, fits, told⟩ := hu
    refine ⟨hc.redraws draws.stands told.redraws rfl told.stands.fit hup'.memory, ?_,
      iff_of_true rfl ⟨low, starts, by simp [told.redraws.function?]⟩⟩
    have all := draws.trans told
    rw [List.nil_append, hup.outputLines, hup.markInlined] at all
    refine .told starts (origin.imp_right fun makes => ⟨makes.free, ?_⟩) fits all
    rintro ⟨low', high', hbody', -, meets⟩
    rw [hbody] at hbody'
    cases hbody'
    exact makes.clear meets

/-- Whatever holds where a definition was taken up holds once that is counted. -/
theorem takeUpFunction_of {x : FunctionDefinition × SourceFile} {P : Bool → Session → Prop}
    (h : Works d pointerSize (if isComplete x.1 then importFunction x.1 x.2 else pure false) s P
      AnyFault)
    (counted : ∀ {made t} (stats : Stats), t.Imported d pointerSize → P made t →
      P made { t with stats }) :
    Works d pointerSize (takeUpFunction x) s (fun _ t => ∃ made, P made t) AnyFault := by
  have taken : takeUpFunction x =
      (if isComplete x.1 then importFunction x.1 x.2 else pure false) >>= fun made =>
        if made then count fun t => { t with functions := t.functions + 1 } else skipped := by
    unfold takeUpFunction
    split <;> rfl
  rw [taken]
  refine Works.bind h fun made t ht _ hp => ?_
  have kept (f : Stats → Stats) :
      Works d pointerSize (count f) t (fun _ t => ∃ made, P made t) AnyFault :=
    (Works.count ht f).mono (fun _ u _ _ hu => ⟨made, hu ▸ counted u.stats ht hp⟩)
      fun _ _ _ _ h => h
  split
  · exact kept _
  · exact kept _

end Import

end StabsImport

import StabsImport.Program.Data
import StabsImport.Program.Functions
import StabsImport.Proofs.Ledgers

/-!
# The program database

Its operations may be carried out in any order, and each may fail, some of them halfway. Whatever
they end with, the tables stay in step: functions with their symbols, symbols with their addresses,
data with the memory it lies in. Main statement: `performAll_consistent`.
-/

namespace StabsImport

namespace Bound

theorem whole_le (w : Whole) (b : Bound) : (whole w).le b = (ofInt w.value).le b := by
  cases b <;> rfl

theorem whole_lt (w : Whole) (b : Bound) : (whole w).lt b = (ofInt w.value).lt b := by
  cases b <;> rfl

theorem le_whole (b : Bound) (w : Whole) : b.le (whole w) = b.le (ofInt w.value) := by
  cases b <;> rfl

/-- A number at most as great as one below a bound is below it as well. -/
theorem le_of_le {m n : Int} {b : Bound} (hmn : m ≤ n) (h : (ofInt n).le b = true) :
    (ofInt m).le b = true := by
  cases b with
  | whole w =>
      rw [le_whole, le_ofInt, decide_eq_true_eq] at h ⊢
      omega
  | real x =>
      cases x with
      | nan => exact h
      | infinite _ => exact h
      | finite negative mantissa e =>
          obtain ⟨num, den, hx⟩ : ∃ num den,
              (Binary64.finite negative mantissa e).fraction? = some (num, den) := ⟨_, _, rfl⟩
          have hle (k : Int) : (ofInt k).le (.real (.finite negative mantissa e)) =
              decide (k * den ≤ num) := by
            simp only [le, ofInt, compare?, Binary64.compareInt?, hx, Whole.ofInt, Option.map_some,
              compare, compareOfLessAndEq]
            by_cases hlt : num < k * den
            · rw [if_pos hlt]
              exact (decide_eq_false (Int.not_le.mpr hlt)).symm
            · by_cases heq : num = k * den
              · rw [if_neg hlt, if_pos heq]
                exact (decide_eq_true (Int.le_of_eq heq.symm)).symm
              · rw [if_neg hlt, if_neg heq]
                exact (decide_eq_true (Int.not_lt.mp hlt)).symm
          rw [hle, decide_eq_true_eq] at h ⊢
          have : m * (den : Int) ≤ n * den :=
            Int.mul_le_mul_of_nonneg_right hmn (Int.natCast_nonneg _)
          omega

end Bound

namespace Function

/-- A function reduced to where it lies. -/
def bare (f : Function) : Function := { name := "", entry := f.entry, body := f.body }

@[simp] theorem entry_bare (f : Function) : f.bare.entry = f.entry := rfl

@[simp] theorem body_bare (f : Function) : f.bare.body = f.body := rfl

@[simp] theorem contains_bare (f : Function) (address : Int) :
    f.bare.contains address = f.contains address := rfl

end Function

namespace Program

variable {p q : Program}

/-! ## Making functions -/

/-- A function under its default name. -/
def newFunction (entry : Whole) (body : Whole × Bound) : Function :=
  { name := defaultName entry.value, entry, body }

def newFunctionSymbol (entry : Whole) : Symbol :=
  { address := entry, name := defaultName entry.value, kind := .function, source := .default,
    primary := true }

/-- The program with such a function and its symbol. -/
def placeFunction (p : Program) (entry : Whole) (body : Whole × Bound) : Program :=
  { p with functions := p.functions.put entry.value (newFunction entry body) : Program }.setSymbols
    entry (withSymbol (p.symbolsAt entry.value) (newFunctionSymbol entry))

/-- None is there, and the body holds the entry point and meets no other. -/
structure CanPlace (p : Program) (entry : Whole) (body : Whole × Bound) : Prop where
  inside : body.1.value ≤ entry.value ∧ (Bound.ofInt entry.value).le body.2 = true
  free : p.functions.contains entry.value = false
  clear : ∀ g ∈ p.functions.values, bodiesMeet body.1 body.2 g = false

theorem CanPlace.get?_eq_none {entry : Whole} {body : Whole × Bound}
    (h : p.CanPlace entry body) : p.functions.get? entry.value = none := by
  simpa [Ledger.contains] using h.free

theorem function?_placeFunction {entry : Whole} {body : Whole × Bound} :
    (p.placeFunction entry body).function? entry.value = some (newFunction entry body) := by
  simp [placeFunction, function?, Program.setSymbols, Ledger.get?_put_self]

/-- What a run that makes a function ends with: it is refused, or the function is placed and then
gets its own name. -/
theorem runs_createFunction {name : Json} {entry : Whole} {body : Option (Whole × Bound)}
    {source : SourceKind} {ok : Unit → Program → Prop} {bad : Fault → Program → Prop}
    (refused : ∀ e, bad e p)
    (placed : p.CanPlace entry (body.getD (entry, .whole entry)) →
      Runs (if name.holds then renameFunction entry.value name source else pure ())
        (p.placeFunction entry (body.getD (entry, .whole entry))) ok bad) :
    Runs (createFunction name entry body source) p ok bad := by
  unfold createFunction
  generalize body.getD (entry, .whole entry) = range at placed ⊢
  obtain ⟨low, high⟩ := range
  dsimp only
  rw [Runs.ite_iff]
  split
  · exact refused _
  next hbody =>
  rw [Runs.bind_iff, Runs.get_iff, Runs.ite_iff]
  split
  · exact refused _
  next hfree =>
  rw [Runs.bind_iff, Runs.get_iff]
  split
  · exact refused _
  next hclear =>
  have inside : high.lt (.whole low) = false ∧ low.value ≤ entry.value ∧
      (Bound.ofInt entry.value).le high = true := by
    simpa [Bound.whole_le, Bound.le_whole] using hbody
  rw [setFunction, Runs.bind_iff, Runs.modify_iff, addSymbol, Runs.bind_iff, Runs.modify_iff]
  exact placed ⟨inside.2, by simpa using hfree,
    fun g hg => by simpa using List.find?_eq_none.mp hclear g hg⟩

/-! ## Functions -/

/-- The keys of the functions, and where they lie. -/
def sites (p : Program) : List (Int × Function) := p.functions.entries.map fun e => (e.1, e.2.bare)

/-- Every function is stored under its entry point, which its body holds, and no address is in two
bodies. -/
structure FunctionsStand (p : Program) : Prop where
  distinct : p.functions.Distinct
  stored : ∀ e ∈ p.functions.entries, e.2.entry.value = e.1
  inside : ∀ e ∈ p.functions.entries, e.2.contains e.2.entry.value = true
  apart : p.functions.entries.Pairwise fun e e' =>
    ∀ address, ¬ (e.2.contains address = true ∧ e'.2.contains address = true)

theorem contains_iff {f : Function} {address : Int} :
    f.contains address = true ↔
      f.body.1.value ≤ address ∧ (Bound.ofInt address).le f.body.2 = true := by
  rw [Function.contains, Bool.and_eq_true, Function.low, Bound.whole_le, Bound.le_ofInt,
    decide_eq_true_eq, Function.high]

theorem bodiesMeet_of_contains {low : Whole} {high : Bound} {f g : Function}
    (body : f.body = (low, high)) {address : Int} (hf : f.contains address = true)
    (hg : g.contains address = true) : bodiesMeet low high g = true := by
  obtain ⟨hlow, hhigh⟩ := contains_iff.mp hf
  obtain ⟨glow, ghigh⟩ := contains_iff.mp hg
  rw [body] at hlow hhigh
  rw [bodiesMeet, Bool.and_eq_true, Function.low, Bound.whole_le, Bound.whole_le]
  exact ⟨Bound.le_of_le glow hhigh, Bound.le_of_le hlow ghigh⟩

namespace FunctionsStand

/-- All of it is about where functions lie. -/
theorem of_sites (h : p.FunctionsStand) (same : q.sites = p.sites) : q.FunctionsStand := by
  have keys : q.functions.keys = p.functions.keys := by
    simpa [sites, Ledger.keys, List.map_map, Function.comp_def] using congrArg (List.map (·.1)) same
  have all {P : Int × Function → Prop} :
      (∀ e ∈ p.functions.entries, P (e.1, e.2.bare)) →
        ∀ e ∈ q.functions.entries, P (e.1, e.2.bare) := by
    intro hp
    have hs : ∀ x ∈ q.sites, P x := by
      rw [same]
      exact List.forall_mem_map.mpr hp
    exact List.forall_mem_map.mp hs
  refine ⟨?_, ?_, ?_, ?_⟩
  · rw [Ledger.Distinct, keys]
    exact h.distinct
  · exact all (P := fun x => x.2.entry.value = x.1) h.stored
  · exact all (P := fun x => x.2.contains x.2.entry.value = true) h.inside
  · have sited : p.sites.Pairwise fun x y => ∀ address,
        ¬ (x.2.contains address = true ∧ y.2.contains address = true) :=
      List.pairwise_map.mpr h.apart
    rw [← same] at sited
    exact List.pairwise_map.mp sited

/-- A function may stand where none does, if its body is clear of the others. -/
theorem put (h : p.FunctionsStand) {f : Function} (inside : f.contains f.entry.value = true)
    (free : p.functions.get? f.entry.value = none)
    (clear : ∀ g ∈ p.functions.values, bodiesMeet f.body.1 f.body.2 g = false) :
    { p with functions := p.functions.put f.entry.value f : Program }.FunctionsStand := by
  have entries := Ledger.entries_put_of_free free f
  have all {P : Int × Function → Prop} (hp : ∀ e ∈ p.functions.entries, P e)
      (hf : P (f.entry.value, f)) : ∀ e ∈ (p.functions.put f.entry.value f).entries, P e := by
    rw [entries]
    exact List.forall_mem_append.mpr ⟨hp, List.forall_mem_singleton.mpr hf⟩
  refine ⟨h.distinct.put _ _, all h.stored rfl, all h.inside inside, ?_⟩
  show (p.functions.put f.entry.value f).entries.Pairwise _
  rw [entries, List.pairwise_append]
  refine ⟨h.apart, List.pairwise_singleton _ _, ?_⟩
  intro e he e' he' address hboth
  obtain rfl := List.mem_singleton.mp he'
  have hmeet := bodiesMeet_of_contains rfl hboth.2 hboth.1
  rw [clear e.2 (List.mem_map_of_mem he)] at hmeet
  cases hmeet

end FunctionsStand

/-- An edit of functions that leaves them where they are. -/
theorem sites_update {entry : Int} {f : Function → Function} (hf : ∀ g, (f g).bare = g.bare) :
    { p with functions := p.functions.update entry f : Program }.sites = p.sites :=
  Ledger.map_update fun k g => by rw [hf]

end Program

/-! ## Symbols -/

/-- What tells symbols at an address apart for good: flags and sources may change. -/
def Symbol.tag (s : Symbol) : Int × SymbolKind × String := (s.address.value, s.kind, s.name)

/-- The symbols at an address where a function of this name stands, or none: the function has one
symbol, and no two labels have the same name. -/
structure SymbolsFit (address : Int) (function : Option String) (symbols : List Symbol) :
    Prop where
  functions : (symbols.filter (·.kind == .function)).map (·.name) = function.toList
  labels : ((symbols.filter (·.kind == .label)).map (·.name)).Nodup
  here : ∀ s ∈ symbols, s.address.value = address

namespace SymbolsFit

variable {address : Int} {function : Option String} {symbols l₁ l₂ : List Symbol} {s t : Symbol}

theorem nil : SymbolsFit address none [] := ⟨rfl, List.nodup_nil, by simp⟩

theorem of_tags (h : SymbolsFit address function symbols) {symbols' : List Symbol}
    (same : symbols'.map (·.tag) = symbols.map (·.tag)) :
    SymbolsFit address function symbols' := by
  have names (l : List Symbol) (kind : SymbolKind) : (l.filter (·.kind == kind)).map (·.name) =
      ((l.map (·.tag)).filter (·.2.1 == kind)).map (·.2.2) := by
    rw [List.filter_map, List.map_map]
    rfl
  refine ⟨?_, ?_, ?_⟩
  · rw [names, same, ← names]
    exact h.functions
  · rw [names, same, ← names]
    exact h.labels
  · intro s hs
    have hmem : s.tag ∈ symbols.map (·.tag) := same ▸ List.mem_map_of_mem hs
    obtain ⟨t, ht, htag⟩ := List.mem_map.mp hmem
    exact (congrArg (·.1) htag).symm.trans (h.here t ht)

/-- Labels may go. -/
theorem sublist (h : SymbolsFit address function symbols) {rest : List Symbol}
    (sub : rest.Sublist symbols)
    (kept : rest.filter (·.kind == .function) = symbols.filter (·.kind == .function)) :
    SymbolsFit address function rest :=
  ⟨kept ▸ h.functions, h.labels.sublist ((sub.filter _).map _), fun s hs => h.here s (sub.mem hs)⟩

theorem filter_not_label (h : SymbolsFit address function symbols) (name : String) :
    SymbolsFit address function (symbols.filter (!Program.isLabelNamed name ·)) := by
  refine h.sublist List.filter_sublist ?_
  rw [List.filter_filter]
  refine List.filter_congr fun s _ => ?_
  cases hk : s.kind <;> simp [Program.isLabelNamed, hk]

theorem without (h : SymbolsFit address function symbols) (label : s.kind = .label) :
    SymbolsFit address function (Program.withoutSymbol symbols s) := by
  refine h.sublist List.eraseP_sublist ?_
  rw [Program.withoutSymbol]
  by_cases hs : ∃ t ∈ symbols, t.same s = true
  · obtain ⟨t, ht, hts⟩ := hs
    obtain ⟨u, l₁, l₂, -, hu, hsplit, herase⟩ := List.exists_of_eraseP (p := (·.same s)) ht hts
    have hkind : u.kind = .label := by
      have hk : (u.kind == s.kind) = true := by
        simp only [Symbol.same, Bool.and_eq_true] at hu
        exact hu.1.1.2
      rw [← label]
      exact eq_of_beq hk
    rw [herase, hsplit]
    simp [hkind]
  · rw [List.eraseP_of_forall_not]
    exact fun t ht hts => hs ⟨t, ht, hts⟩

/-- The symbol of a function may be replaced. -/
theorem replace (h : SymbolsFit address function (l₁ ++ s :: l₂)) (hs : s.kind = .function)
    (ht : t.kind = .function) (here : t.address.value = address) :
    SymbolsFit address (some t.name) (l₁ ++ t :: l₂) := by
  have functions := h.functions
  have labels := h.labels
  simp only [List.filter_append, List.filter_cons, hs, beq_self_eq_true, if_true, List.map_append,
    List.map_cons] at functions labels
  obtain ⟨h₁, h₂⟩ : (l₁.filter (·.kind == .function)).map (·.name) = [] ∧
      (l₂.filter (·.kind == .function)).map (·.name) = [] := by
    cases function with
    | none => simp at functions
    | some name =>
        rcases List.append_eq_singleton_iff.mp functions with ⟨h₁, h₂⟩ | ⟨-, h₂⟩
        · exact ⟨h₁, (List.cons.inj h₂).2⟩
        · cases h₂
  refine ⟨?_, ?_, ?_⟩
  · simp [ht, h₁, h₂]
  · simpa [ht] using labels
  · intro u hu
    rcases List.mem_append.mp hu with hu | hu
    · exact h.here u (by simp [hu])
    · rcases List.mem_cons.mp hu with rfl | hu
      · exact here
      · exact h.here u (by simp [hu])

theorem tags_withSymbol (symbols : List Symbol) (s : Symbol) :
    (Program.withSymbol symbols s).map (·.tag) = (symbols ++ [s]).map (·.tag) := by
  unfold Program.withSymbol
  split <;> simp [Symbol.tag, Function.comp_def]

/-- A function gets its symbol. -/
theorem withFunction (h : SymbolsFit address none symbols) (hs : s.kind = .function)
    (here : s.address.value = address) :
    SymbolsFit address (some s.name) (Program.withSymbol symbols s) := by
  have fit : SymbolsFit address (some s.name) (symbols ++ [s]) := by
    refine ⟨?_, ?_, ?_⟩
    · simp [hs, h.functions]
    · simpa [hs] using h.labels
    · exact List.forall_mem_append.mpr ⟨h.here, List.forall_mem_singleton.mpr here⟩
  exact fit.of_tags (tags_withSymbol symbols s)

/-- A label may have any name that is free. -/
theorem withLabel (h : SymbolsFit address function symbols) (hs : s.kind = .label)
    (here : s.address.value = address) (fresh : ∀ t ∈ symbols, t.name ≠ s.name) :
    SymbolsFit address function (Program.withSymbol symbols s) := by
  have fit : SymbolsFit address function (symbols ++ [s]) := by
    refine ⟨?_, ?_, ?_⟩
    · simpa [hs] using h.functions
    · simp only [List.filter_append, List.map_append]
      refine List.nodup_append.mpr ⟨h.labels, by simp [hs], ?_⟩
      intro name hname name' hname'
      obtain ⟨t, ht, rfl⟩ := List.mem_map.mp hname
      obtain ⟨u, hu, rfl⟩ := List.mem_map.mp hname'
      obtain rfl := List.mem_singleton.mp (List.mem_filter.mp hu).1
      exact fresh t (List.mem_filter.mp ht).1
    · exact List.forall_mem_append.mpr ⟨h.here, List.forall_mem_singleton.mpr here⟩
  exact fit.of_tags (tags_withSymbol symbols s)

/-- A function takes a name that labels had. -/
theorem named (h : SymbolsFit address function symbols) (known : function.isSome = true)
    (entry : Whole) (name : String) (source : SourceKind) :
    SymbolsFit address (some name)
      (Program.nameFunctionSymbol entry name source
        (symbols.filter (!Program.isLabelNamed name ·))) := by
  have hfit := h.filter_not_label name
  generalize symbols.filter (!Program.isLabelNamed name ·) = rest at hfit
  unfold Program.nameFunctionSymbol
  split
  · next index hi =>
      obtain ⟨hlt, hkind, -⟩ := List.findIdx?_eq_some_iff_getElem.mp hi
      rw [← List.take_append_drop index rest, ← List.getElem_cons_drop hlt] at hfit
      rw [List.modify_eq_take_cons_drop hlt]
      refine hfit.replace (t := { rest[index] with name, source }) (eq_of_beq hkind)
        (eq_of_beq hkind) (hfit.here rest[index] ?_)
      exact List.mem_append_right _ List.mem_cons_self
  · next hnone =>
      have functions := hfit.functions
      rw [List.findIdx?_eq_none_iff] at hnone
      rw [List.filter_eq_nil_iff.mpr fun s hs => by simp [hnone s hs]] at functions
      cases function with
      | none => cases known
      | some old => cases functions

/-- A function falls back to its default name. -/
theorem reset (h : SymbolsFit address function symbols) {index : Nat}
    (hs : symbols[index]? = some s) (hkind : s.kind = .function) :
    SymbolsFit address (some (Program.defaultName address))
      (symbols.set index (Program.defaultSymbol address s)) := by
  obtain ⟨hlt, rfl⟩ := List.getElem?_eq_some_iff.mp hs
  have here := h.here _ (List.getElem_mem hlt)
  rw [← List.take_append_drop index symbols, ← List.getElem_cons_drop hlt] at h
  rw [List.set_eq_take_append_cons_drop, if_pos hlt]
  exact h.replace (t := Program.defaultSymbol address symbols[index]) hkind hkind here

end SymbolsFit

namespace Program

variable {p q : Program} {blocks : List (Int × Int)}

/-- The symbols at every address fit the function there, and no address has an empty list of
symbols. -/
structure SymbolsStand (p : Program) : Prop where
  distinct : p.symbols.Distinct
  held : ∀ e ∈ p.symbols.entries, e.2 ≠ []
  fit : ∀ address, SymbolsFit address ((p.function? address).map (·.name)) (p.symbolsAt address)

namespace SymbolsStand

/-- The symbols at one address change, and with them the function there. -/
theorem setSymbols (h : p.SymbolsStand) (address : Whole) (symbols : List Symbol)
    (same : q.symbols = (p.setSymbols address symbols).symbols)
    (others : ∀ other, other ≠ address.value → (q.function? other).map (·.name) =
      (p.function? other).map (·.name))
    (fit : SymbolsFit address.value ((q.function? address.value).map (·.name)) symbols) :
    q.SymbolsStand := by
  have hat (other : Int) : q.symbolsAt other = (p.setSymbols address symbols).symbolsAt other := by
    rw [symbolsAt, same, symbolsAt]
  refine ⟨?_, ?_, ?_⟩
  · rw [same]
    unfold Program.setSymbols
    split
    · exact h.distinct.remove _
    · exact h.distinct.put _ _
  · rw [same]
    unfold Program.setSymbols
    split
    · exact fun e he => h.held e (List.mem_filter.mp he).1
    · next hne =>
        rw [List.isEmpty_iff] at hne
        intro e he
        rcases Ledger.mem_put he with rfl | he | ⟨old, -, rfl⟩
        · exact hne
        · exact h.held e he
        · exact hne
  · intro other
    rw [hat]
    by_cases ho : other = address.value
    · rw [ho, symbolsAt_setSymbols_self]
      exact fit
    · rw [symbolsAt_setSymbols_of_ne _ _ ho, others other ho]
      exact h.fit other

end SymbolsStand

/-! ## Data -/

/-- Data has some length, lies in one block of memory where there are blocks, and does not
overlap. -/
structure DataStands (p : Program) (blocks : List (Int × Int)) : Prop where
  memory : p.memory = blocks
  distinct : p.data.Distinct
  positive : ∀ e ∈ p.data.entries, 0 < e.2.length
  mapped : blocks ≠ [] → ∀ e ∈ p.data.entries, ∃ block ∈ blocks,
    block.1 ≤ e.1 ∧ e.1 + e.2.length - 1 ≤ block.2
  apart : p.data.entries.Pairwise fun e e' =>
    e.1 + e.2.length ≤ e'.1 ∨ e'.1 + e'.2.length ≤ e.1

/-- New data takes the place of all it overlaps. -/
theorem DataStands.put (h : p.DataStands blocks) {address : Int} (item : DataItem)
    (positive : 0 < item.length)
    (mapped : p.isMapped address (address + item.length - 1) = true) :
    { p with data := (Ledger.mk (p.data.entries.filter
        (!dataMeets address (address + item.length) ·))).put address item : Program }.DataStands
      blocks := by
  have free : (Ledger.mk (p.data.entries.filter
      (!dataMeets address (address + item.length) ·))).get? address = none := by
    refine Ledger.get?_eq_none_iff.mpr fun e he => ?_
    obtain ⟨hmem, hclear⟩ := List.mem_filter.mp he
    have hpos := h.positive e hmem
    simp only [dataMeets, Bool.not_eq_true', Bool.and_eq_false_iff, decide_eq_false_iff_not]
      at hclear
    show decide (e.1 = address) = false
    rw [decide_eq_false_iff_not]
    omega
  have entries := Ledger.entries_put_of_free free item
  have all {P : Int × DataItem → Prop} (hp : ∀ e ∈ p.data.entries, P e) (hi : P (address, item)) :
      ∀ e ∈ ((Ledger.mk (p.data.entries.filter
        (!dataMeets address (address + item.length) ·))).put address item).entries, P e := by
    rw [entries]
    exact List.forall_mem_append.mpr
      ⟨fun e he => hp e (List.mem_filter.mp he).1, List.forall_mem_singleton.mpr hi⟩
  refine ⟨h.memory, (h.distinct.filter _).put _ _, all h.positive positive,
    fun hm => all (h.mapped hm) ?_, ?_⟩
  · simpa [isMapped, h.memory, hm] using mapped
  · show ((Ledger.mk _).put address item).entries.Pairwise _
    rw [entries, List.pairwise_append]
    refine ⟨h.apart.filter _, List.pairwise_singleton _ _, ?_⟩
    intro e he e' he'
    obtain rfl := List.mem_singleton.mp he'
    have hclear := (List.mem_filter.mp he).2
    simp only [dataMeets, Bool.not_eq_true', Bool.and_eq_false_iff, decide_eq_false_iff_not]
      at hclear
    dsimp only
    omega

theorem DataStands.of_eq (h : p.DataStands blocks) (data : q.data = p.data)
    (memory : q.memory = p.memory) : q.DataStands blocks where
  memory := memory.trans h.memory
  distinct := data ▸ h.distinct
  positive := data ▸ h.positive
  mapped := data ▸ h.mapped
  apart := data ▸ h.apart

/-! ## All tables -/

/-- The tables of a program are in step with each other. -/
structure Consistent (p : Program) (blocks : List (Int × Int)) : Prop where
  functions : p.FunctionsStand
  symbols : p.SymbolsStand
  data : p.DataStands blocks

namespace Consistent

theorem entry_eq (h : p.Consistent blocks) {entry : Int} {f : Function}
    (hf : p.function? entry = some f) : f.entry.value = entry := by
  obtain ⟨e, he, hk, rfl⟩ := Ledger.exists_entry_of_get? hf
  exact (h.functions.stored e he).trans (of_decide_eq_true hk)

/-- Other symbols at one address. -/
theorem setSymbols (h : p.Consistent blocks) {address : Whole} {symbols : List Symbol}
    (fit : SymbolsFit address.value ((p.function? address.value).map (·.name)) symbols) :
    (p.setSymbols address symbols).Consistent blocks where
  functions := h.functions.of_sites rfl
  symbols := h.symbols.setSymbols address symbols rfl (fun _ _ => rfl) fit
  data := h.data.of_eq rfl rfl

/-- A function changes its name together with its symbol. -/
theorem rename (h : p.Consistent blocks) {address : Whole} {symbols : List Symbol} {name : String}
    (known : (p.function? address.value).isSome = true)
    (fit : SymbolsFit address.value (some name) symbols) :
    { p.setSymbols address symbols with
      functions := p.functions.update address.value ({ · with name }) : Program }.Consistent
      blocks where
  functions := h.functions.of_sites (sites_update fun _ => rfl)
  symbols := by
    refine h.symbols.setSymbols address symbols rfl ?_ ?_
    · intro other ho
      have hne : Key.same address.value other = false := decide_eq_false fun heq => ho heq.symm
      simp [function?, Ledger.get?_update, hne]
    · obtain ⟨f, hf⟩ := Option.isSome_iff_exists.mp known
      have hf : p.functions.get? address.value = some f := hf
      simpa [function?, Ledger.get?_update, hf] using fit
  data := h.data.of_eq rfl rfl

/-- A function is made where none is, under a name that its symbol gets as well. -/
theorem place (h : p.Consistent blocks) {entry : Whole} {body : Whole × Bound}
    (fits : p.CanPlace entry body) : (p.placeFunction entry body).Consistent blocks where
  functions :=
    (h.functions.put (f := newFunction entry body) (contains_iff.mpr fits.inside)
      fits.get?_eq_none fits.clear).of_sites rfl
  symbols := by
    refine h.symbols.setSymbols entry _ rfl ?_ ?_
    · intro other ho
      have hne : Key.same other entry.value = false := decide_eq_false ho
      simp [placeFunction, function?, Program.setSymbols, Ledger.get?_put_of_not_same _ _ hne]
    · have fit := h.symbols.fit entry.value
      rw [function?, fits.get?_eq_none] at fit
      rw [function?_placeFunction]
      exact fit.withFunction (s := newFunctionSymbol entry) rfl rfl
  data := h.data.of_eq rfl rfl

end Consistent

/-- Whatever an edit ends with, the tables are in step if they were before. -/
def KeepsConsistent {α : Type} (m : Edit α) : Prop :=
  ∀ {p : Program} {blocks : List (Int × Int)}, p.Consistent blocks →
    Runs m p (fun _ q => q.Consistent blocks) fun _ q => q.Consistent blocks

theorem renameFunction_consistent (h : p.Consistent blocks) {entry : Int}
    (known : (p.function? entry).isSome = true) (name : Json) (source : SourceKind) :
    Runs (renameFunction entry name source) p (fun _ q => q.Consistent blocks) fun _ q =>
      q.Consistent blocks := by
  obtain ⟨f, hf⟩ := Option.isSome_iff_exists.mp known
  have hentry := h.entry_eq hf
  rw [renameFunction, Runs.bind_iff, runs_ofResult]
  split
  · next name _ =>
      rw [Runs.bind_iff, Runs.get_iff, hf]
      have fit := (h.symbols.fit entry).named (by simp [hf]) f.entry name source
      rw [← hentry] at known fit ⊢
      exact h.rename known fit
  · exact h

theorem createFunction_consistent (name : Json) (entry : Whole) (body : Option (Whole × Bound))
    (source : SourceKind) : KeepsConsistent (createFunction name entry body source) := by
  intro p blocks h
  refine runs_createFunction (fun _ => h) fun fits => ?_
  -- The function stays, under its default name, when the name it was to get is refused.
  split
  · exact renameFunction_consistent (h.place fits) (by rw [function?_placeFunction]; rfl) name
      source
  · exact h.place fits

theorem setFunctionComment_consistent (entry : Int) (comment : Json) :
    KeepsConsistent (setFunctionComment entry comment) := by
  intro p blocks h
  rw [setFunctionComment, editFunction, Runs.modify_iff]
  refine ⟨h.functions.of_sites (sites_update fun _ => rfl), ⟨h.symbols.distinct, h.symbols.held,
    fun address => ?_⟩, h.data.of_eq rfl rfl⟩
  have names : ((p.functions.update entry ({ · with comment })).get? address).map (·.name) =
      (p.function? address).map (·.name) := by
    rw [Ledger.get?_update]
    split
    · rw [Option.map_map]
      rfl
    · rfl
  rw [function?, names]
  exact h.symbols.fit address

theorem removeSymbolAt_consistent (address : Int) (index : Nat) :
    KeepsConsistent (removeSymbolAt address index) := by
  intro p blocks h
  rw [removeSymbolAt, Runs.modify_iff]
  have fit := h.symbols.fit address
  dsimp only
  split
  · exact h
  · next s hs =>
      have hmem := List.mem_of_getElem? hs
      have here := fit.here s hmem
      split
      · next hkind =>
          refine h.setSymbols ?_
          rw [here]
          exact fit.without hkind
      · next hkind =>
          have known : (p.function? address).isSome = true := by
            have functions := fit.functions
            cases hf : p.function? address with
            | some f => rfl
            | none =>
                rw [hf, Option.map_none, Option.toList_none, List.map_eq_nil_iff,
                  List.filter_eq_nil_iff] at functions
                exact absurd (by simp [hkind]) (functions s hmem)
          subst here
          exact h.rename known (fit.reset hs hkind)

theorem removeSymbol_consistent {s : Symbol} (label : s.kind = .label) :
    KeepsConsistent (removeSymbol s) := by
  intro p blocks h
  rw [removeSymbol, Runs.modify_iff, label]
  dsimp only
  split
  · exact h.setSymbols ((h.symbols.fit _).without label)
  · exact h

theorem createLabel_consistent (address : Whole) (name : Json) (makePrimary : Bool) :
    KeepsConsistent (createLabel address name makePrimary) := by
  intro p blocks h
  rw [createLabel, Runs.bind_iff, runs_ofResult]
  have fit := h.symbols.fit address.value
  split
  · next name _ =>
      rw [Runs.bind_iff, Runs.get_iff]
      dsimp only
      split
      · split
        · refine h.setSymbols (fit.of_tags ?_)
          refine List.ext_getElem (by simp) fun i _ _ => ?_
          simp [Symbol.tag]
        · exact h
      · next hnone =>
          refine h.setSymbols (fit.withLabel rfl rfl fun t ht => ?_)
          simpa using List.findIdx?_eq_none_iff.mp hnone t ht
  · exact h

theorem setComment_consistent (address : Int) (kind : CommentKind) (text : Option String) :
    KeepsConsistent (setComment address kind text) := fun h =>
  ⟨h.functions.of_sites rfl, ⟨h.symbols.distinct, h.symbols.held, h.symbols.fit⟩,
    h.data.of_eq rfl rfl⟩

theorem createData_consistent (address : Int) (type : TypeId) (length : Int) (clear : Bool) :
    KeepsConsistent (createData address type length clear) := by
  intro p blocks h
  rw [createData, Runs.bind_iff, Runs.get_iff]
  dsimp only
  rw [Runs.ite_iff]
  split
  · rw [Runs.bind_iff, typeName, runs_view]
    split <;> exact h
  · next hlength =>
      rw [Runs.ite_iff]
      split
      · exact h
      · next hmapped =>
          split
          · exact h
          · split
            · exact h
            · refine ⟨h.functions.of_sites rfl, ⟨h.symbols.distinct, h.symbols.held, h.symbols.fit⟩,
                h.data.put { type, length } (Int.not_le.mp hlength) ?_⟩
              simpa using hmapped

theorem consistent_blank (executable : Option String) (pointerSize : Int)
    (convention : CallingConvention) (memory : List (Int × Int)) (arena : Arena) :
    Consistent { executable, pointerSize, convention, memory, arena } memory where
  functions := ⟨Ledger.distinct_empty, nofun, nofun, List.Pairwise.nil⟩
  symbols := ⟨Ledger.distinct_empty, nofun, fun _ => SymbolsFit.nil⟩
  data := ⟨rfl, Ledger.distinct_empty, nofun, fun _ => nofun, List.Pairwise.nil⟩

end Program

/-! ## Operations in any order -/

/-- An operation of the program database, or of one of its functions. -/
inductive Operation where
  | createFunction (name : Json) (entry : Whole) (body : Option (Whole × Bound))
      (source : SourceKind)
  /-- Only a function that is there can be renamed. -/
  | renameFunction (entry : Int) (name : Json) (source : SourceKind)
  | setFunctionComment (entry : Int) (comment : Json)
  /-- Removes the symbol at a place in the list of its address. -/
  | removeSymbol (address : Int) (index : Nat)
  /-- Removes a label seen before, which may be gone; a function's symbol never goes. -/
  | removeLabel (label : Symbol)
  | createLabel (address : Whole) (name : Json) (makePrimary : Bool)
  | setComment (address : Int) (kind : CommentKind) (text : Option String)
  | createData (address : Int) (type : TypeId) (length : Int) (clear : Bool)

namespace Operation

def edit : Operation → Edit Unit
  | createFunction name entry body source => Program.createFunction name entry body source
  | renameFunction entry name source => do
      if ((← get).function? entry).isSome then Program.renameFunction entry name source
  | setFunctionComment entry comment => Program.setFunctionComment entry comment
  | removeSymbol address index => Program.removeSymbolAt address index
  | removeLabel label => Program.removeSymbol { label with kind := .label }
  | createLabel address name makePrimary => do
      let _ ← Program.createLabel address name makePrimary
  | setComment address kind text => Program.setComment address kind text
  | createData address type length clear => Program.createData address type length clear

/-- The program an operation leaves behind, whether it succeeds or fails. -/
def perform (p : Program) (o : Operation) : Program := (o.edit p).2

def performAll (p : Program) (operations : List Operation) : Program := operations.foldl perform p

/-- What one operation keeps. -/
theorem perform_consistent {p : Program} {blocks : List (Int × Int)} (h : p.Consistent blocks)
    (o : Operation) : (perform p o).Consistent blocks := by
  have hrun : Runs o.edit p (fun _ q => q.Consistent blocks) fun _ q => q.Consistent blocks := by
    cases o with
    | createFunction name entry body source =>
        exact Program.createFunction_consistent name entry body source h
    | renameFunction entry name source =>
        rw [edit, Runs.bind_iff, Runs.get_iff, Runs.ite_iff]
        split
        · next known => exact Program.renameFunction_consistent h known name source
        · exact h
    | setFunctionComment entry comment =>
        exact Program.setFunctionComment_consistent entry comment h
    | removeSymbol address index => exact Program.removeSymbolAt_consistent address index h
    | removeLabel label => exact Program.removeSymbol_consistent rfl h
    | createLabel address name makePrimary =>
        rw [edit, Runs.bind_iff]
        exact Program.createLabel_consistent address name makePrimary h
    | setComment address kind text => exact Program.setComment_consistent address kind text h
    | createData address type length clear =>
        exact Program.createData_consistent address type length clear h
  exact hrun.snd

/-- After any operations on a program that starts without functions, symbols and data, however they
end, its tables are in step. -/
theorem performAll_consistent (executable : Option String) (pointerSize : Int)
    (convention : CallingConvention) (memory : List (Int × Int)) (arena : Arena)
    (operations : List Operation) :
    (performAll { executable, pointerSize, convention, memory, arena } operations).Consistent
      memory := by
  suffices ∀ p : Program, p.Consistent memory → (performAll p operations).Consistent memory from
    this _ (Program.consistent_blank executable pointerSize convention memory arena)
  induction operations with
  | nil => exact fun _ h => h
  | cons o operations ih => exact fun p h => ih (perform p o) (perform_consistent h o)

end Operation

end StabsImport

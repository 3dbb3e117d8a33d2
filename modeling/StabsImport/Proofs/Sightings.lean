import StabsImport.Proofs.GlobalRounds

/-!
# Globals one over another

Every global with an address gets data, if it may lie there, in the place of all that it overlaps,
and a label whether it may or not. What a stage leaves is told by the globals in their order: of the
data what nothing later reached into, of the labels at an address all that were put there, with the
flag at the last. Main statement: `importGlobals_lays`.
-/

namespace StabsImport

open Document (Variable)

namespace Program

variable {p q : Program} {e : Int × DataItem} {l as : List (Int × DataItem)} {symbols : List Symbol}
  {address : Int} {name : String} {names : List String}

/-! ## Data over data -/

/-- The bytes of new data lie in one block of memory, if there are blocks, and no body reaches into
them. -/
structure Accepts (p : Program) (e : Int × DataItem) : Prop where
  mapped : p.memory ≠ [] → ∃ block ∈ p.memory,
    block.1 ≤ e.1 ∧ e.1 + e.2.length - 1 ≤ block.2
  clear : ∀ f ∈ p.functions.values, bodyMeets e.1 (e.1 + e.2.length) f = false

theorem admits_iff (haddress : 0 ≤ e.1) (hlength : 0 < e.2.length) :
    p.admits e.1 e.2.length = true ↔ p.Accepts e := by
  have mapped : p.isMapped e.1 (e.1 + e.2.length - 1) = true ↔
      (p.memory ≠ [] → ∃ block ∈ p.memory, block.1 ≤ e.1 ∧ e.1 + e.2.length - 1 ≤ block.2) := by
    rw [isMapped]
    cases hm : p.memory with
    | nil => simpa using haddress
    | cons => simp
  have clear : (p.sites.all fun x => !bodyMeets e.1 (e.1 + e.2.length) x.2) = true ↔
      ∀ f ∈ p.functions.values, bodyMeets e.1 (e.1 + e.2.length) f = false := by
    rw [all_sites, Option.isNone_iff_eq_none, List.find?_eq_none]
    simp
  rw [admits, Bool.and_eq_true, Bool.and_eq_true, mapped, clear, decide_eq_true_eq]
  exact ⟨fun h => ⟨h.1.2, h.2⟩, fun h => ⟨⟨hlength, h.mapped⟩, h.clear⟩⟩

/-- A body that holds anything reaches into data if they share an address. -/
theorem bodyMeets_iff {f : Function} {stop : Int} (holds : f.low.le f.high = true)
    (hlt : address < stop) :
    bodyMeets address stop f = true ↔ ∃ x, address ≤ x ∧ x < stop ∧ f.contains x = true := by
  rw [bodyMeets, Function.low, Bound.whole_lt, Bound.lt_ofInt, Bool.and_eq_true, decide_eq_true_eq]
  constructor
  · rintro ⟨hlow, hhigh⟩
    rcases Int.le_total f.body.1.value address with hle | hle
    · exact ⟨address, Int.le_refl _, hlt, contains_iff.mpr ⟨hle, hhigh⟩⟩
    · refine ⟨f.body.1.value, hle, hlow, contains_iff.mpr ⟨Int.le_refl _, ?_⟩⟩
      rwa [Function.low, Bound.whole_le] at holds
  · rintro ⟨x, hle, hx, hcontains⟩
    obtain ⟨hlow, hhigh⟩ := contains_iff.mp hcontains
    exact ⟨Int.lt_of_le_of_lt hlow hx, Bound.le_of_le hle hhigh⟩

theorem overlays_of_same_key {e e' : Int × DataItem} (h : e.1 = e'.1) (hpos : 0 < e.2.length)
    (hpos' : 0 < e'.2.length) : overlays e e' = true := by
  simp only [overlays, dataMeets, Bool.and_eq_true, decide_eq_true_eq]
  omega

theorem positive_foldl_overlays (h : ∀ e ∈ l, 0 < e.2.length) (has : ∀ e ∈ as, 0 < e.2.length) :
    ∀ e ∈ as.foldl (layOver overlays) l, 0 < e.2.length := by
  intro e he
  rw [foldl_layOver] at he
  rcases List.mem_append.mp he with he | he
  · exact h e (List.mem_filter.mp he).1
  · exact has e (mem_of_mem_survivors he)

/-- No address has two items afterwards. -/
theorem distinct_foldl_overlays (h : (Ledger.mk l).Distinct) (hl : ∀ e ∈ l, 0 < e.2.length)
    (has : ∀ e ∈ as, 0 < e.2.length) : (Ledger.mk (as.foldl (layOver overlays) l)).Distinct := by
  induction as generalizing l with
  | nil => exact h
  | cons a as ih =>
      obtain ⟨ha, has⟩ := List.forall_mem_cons.mp has
      have laid : ∀ e ∈ [a].foldl (layOver overlays) l, 0 < e.2.length :=
        positive_foldl_overlays hl (List.forall_mem_singleton.mpr ha)
      refine ih ?_ laid has
      have kept := h.filter (!overlays a ·)
      rw [Ledger.Distinct, Ledger.keys] at kept ⊢
      rw [layOver, List.map_append, List.pairwise_append]
      refine ⟨kept, List.pairwise_singleton _ _, fun k hk k' hk' => decide_eq_false fun same => ?_⟩
      obtain ⟨e, he, rfl⟩ := List.mem_map.mp hk
      obtain ⟨hmem, hkept⟩ := List.mem_filter.mp he
      obtain rfl := List.mem_singleton.mp hk'
      have hsame : e.1 = a.1 := same
      rw [overlays_of_same_key hsame.symm ha (hl e hmem)] at hkept
      cases hkept

/-! ## Labels beside labels -/

/-- All these names are those of symbols, and one symbol is primary, which has the last of them. -/
structure Carries (names : List String) (symbols : List Symbol) : Prop where
  each : ∀ name ∈ names, ∃ s ∈ symbols, s.name = name
  last : ∃ s, symbols.filter (·.primary) = [s] ∧ names.getLast? = some s.name

theorem exists_labelled {other : String}
    (h : other = name ∨ ∃ s ∈ symbols, s.name = other) :
    ∃ s ∈ labelled (.ofInt address) name symbols, s.name = other := by
  rcases labelled_cases (.ofInt address) name symbols with
    ⟨pre, s, post, rfl, hs, -, hl⟩ | ⟨-, hl⟩ <;> rw [hl]
  · rcases h with rfl | ⟨t, ht, rfl⟩
    · exact ⟨{ s with primary := true }, by simp, hs⟩
    · rcases List.mem_append.mp ht with ht | ht
      · exact ⟨_, List.mem_append_left _ (List.mem_map_of_mem ht), rfl⟩
      rcases List.mem_cons.mp ht with rfl | ht
      · exact ⟨{ t with primary := true }, by simp, rfl⟩
      · exact ⟨_, List.mem_append_right _ (List.mem_cons_of_mem _ (List.mem_map_of_mem ht)), rfl⟩
  · rcases h with rfl | ⟨t, ht, rfl⟩
    · exact ⟨_, List.mem_append_right _ List.mem_cons_self, rfl⟩
    · exact ⟨_, List.mem_append_left _ (List.mem_map_of_mem ht), rfl⟩

theorem filter_unflagged (symbols : List Symbol) :
    (symbols.map ({ · with primary := false })).filter (·.primary) = [] := by
  simp [List.filter_map, Function.comp_def]

theorem primary_labelled (address : Int) (name : String) (symbols : List Symbol) :
    ∃ s, (labelled (.ofInt address) name symbols).filter (·.primary) = [s] ∧ s.name = name := by
  rcases labelled_cases (.ofInt address) name symbols with
    ⟨pre, s, post, rfl, hs, -, hl⟩ | ⟨-, hl⟩ <;> rw [hl, List.filter_append, filter_unflagged]
  · exact ⟨{ s with primary := true }, by simp [filter_unflagged], hs⟩
  · exact ⟨_, rfl, rfl⟩

theorem exists_labelledAll {other : String}
    (h : other ∈ names ∨ ∃ s ∈ symbols, s.name = other) :
    ∃ s ∈ labelledAll (.ofInt address) names symbols, s.name = other := by
  induction names generalizing symbols with
  | nil => exact h.resolve_left List.not_mem_nil
  | cons name names ih =>
      refine ih ?_
      rcases h with h | h
      · rcases List.mem_cons.mp h with rfl | h
        · exact .inr (exists_labelled (.inl rfl))
        · exact .inl h
      · exact .inr (exists_labelled (.inr h))

theorem carries_labelledAll (address : Int) (hne : names ≠ []) (symbols : List Symbol) :
    Carries names (labelledAll (.ofInt address) names symbols) := by
  refine ⟨fun name hname => exists_labelledAll (.inl hname), ?_⟩
  obtain ⟨first, last, rfl⟩ : ∃ first last, names = first ++ [last] :=
    ⟨_, _, (List.dropLast_append_getLast hne).symm⟩
  obtain ⟨s, hs, hname⟩ :=
    primary_labelled address last (labelledAll (.ofInt address) first symbols)
  refine ⟨s, ?_, by rw [List.getLast?_concat, hname]⟩
  rw [labelledAll, List.foldl_append]
  exact hs

end Program

namespace Import

open Program

variable {s t u : Session} {v : Variable} {vs : List Variable} {e : Int × DataItem} {type : TypeId}

/-! ## One global -/

/-- The data that a global asks for: its type, resolved now, and how long that is by then. -/
def Session.sighted (s : Session) (v : Variable) : Option DataItem :=
  match inside 1 (variableTypeOf (some v.type)) s with
  | (.ok type, t) => some { type, length := t.program.arena.length type }
  | (.error _, _) => none

structure Sighting where
  global : Variable
  item : DataItem

/-- The item, under the address of the global. -/
def Sighting.entry (x : Sighting) : Int × DataItem := (x.global.storage.globalAddress, x.item)

/-- The item, if it may lie there. -/
def Sighting.laid (p : Program) (x : Sighting) : List (Int × DataItem) :=
  if p.admits x.entry.1 x.item.length then [x.entry] else []

theorem Sighting.laid_congr (x : Sighting) {p q : Program} (memory : q.memory = p.memory)
    (functions : q.functions = p.functions) : x.laid q = x.laid p := by
  rw [laid, laid, admits_congr memory (by rw [sites, sites, functions])]

theorem Sighting.positive_laid {x : Sighting} {p : Program} (h : 0 < x.item.length) :
    ∀ e ∈ x.laid p, 0 < e.2.length := by
  intro e he
  rw [laid] at he
  split at he
  · obtain rfl := List.mem_singleton.mp he
    exact h
  · cases he

def Sighting.layOn (x : Sighting) (p : Program) : Program :=
  { p with data := ⟨(x.laid p).foldl (layOver overlays) p.data.entries⟩ }

/-- What a variable's type is resolved to takes up room. -/
theorem variableType_sized (m : ImportM TypeId) (s : Session) :
    Runs (variableType m) s (fun type t => 0 < t.program.arena.length type) fun _ _ => True := by
  have new (p : Program) : Runs (newUndefined 1) p
      (fun type q => 0 < q.arena.length type) fun _ _ => True := by
    have here : (p.arena.push (.undefinedOf 1)).get? p.arena.size = some (.undefinedOf 1) :=
      Arena.get?_push_self _ _
    show 0 < (p.arena.push (.undefinedOf 1)).length p.arena.size
    rw [Arena.length_undefinedOf here]
    exact Int.zero_lt_one
  have sized (id : TypeId) (p : Program) : Runs (Program.sizedType (some id)) p
      (fun type q => 0 < q.arena.length type) fun _ _ => True := by
    show Runs (if p.arena.length id ≤ 0 then newUndefined 1 else pure id) p _ _
    split
    · exact new p
    · next hlength => exact Int.not_le.mp hlength
  rw [variableType, runs_onTypeFault, Runs.bind_iff]
  have handled (e : Fault) (t : Session) : if e.isTypeFault then
      Runs (do diagnose typesSource ("Failed to create type: " ++ e.message); undefined1) t
        (fun type t => 0 < t.program.arena.length type) fun _ _ => True
      else True := by
    split
    · rw [Runs.bind_iff]
      exact Runs.of_all (fun _ u => (runs_edit _).mpr (new u.program)) fun _ _ => trivial
    · trivial
  refine Runs.of_all (fun id t => ?_) handled
  rw [runs_edit]
  exact (sized id t.program).mono (fun _ _ h => h) fun e _ _ => handled e _

/-- What becomes of a global. -/
structure Lays (x : Sighting) (s t : Session) : Prop where
  sighted : s.sighted x.global = some x.item
  positive : 0 < x.item.length
  memory : t.program.memory = s.program.memory
  functions : t.program.functions = s.program.functions
  data : t.program.data = ⟨(x.laid s.program).foldl (layOver overlays) s.program.data.entries⟩
  symbolsAt : ∀ address, t.program.symbolsAt address =
    labelledAll (.ofInt address) (labelOf address x.global).toList (s.program.symbolsAt address)

/-- What an edit is refused for is reported, and the program it left stays. -/
theorem runs_orReport {m : ImportM Unit} {P : Program → Prop} {source : String}
    (h : Runs m s (fun _ t => P t.program) fun _ t => P t.program) :
    Runs (onRejection m (reportFault source)) s (fun _ t => P t.program) fun _ _ => True := by
  rw [runs_onRejection]
  refine h.mono (fun _ _ ht => ht) fun e t ht => ?_
  split
  · rw [reportFault, diagnose, Runs.bind_iff, runs_need]
    split
    · exact ht
    · trivial
  · trivial

/-- The data of a global is placed, if it may lie there. -/
theorem placeData_lays (positive : ∀ e ∈ s.program.data.entries, 0 < e.2.length) {x : Sighting}
    (length : s.program.arena.length x.item.type = x.item.length) :
    Runs (onRejection (do
        edit (Program.createData x.global.storage.globalAddress x.item.type
          (← typeLength x.item.type) true))
      (reportFault globalsSource)) s (fun _ t => t.program = x.layOn s.program)
      fun _ _ => True := by
  refine runs_orReport (P := (· = x.layOn s.program)) ?_
  show Runs (edit (Program.createData x.entry.1 x.item.type
    (s.program.arena.length x.item.type) true)) s _ _
  rw [runs_edit, length]
  refine (runs_createData positive).mono (fun _ q h => ?_) fun _ q h => ?_
  · show q = x.layOn s.program
    rw [h.2, Sighting.layOn, Sighting.laid, if_pos h.1]
    rfl
  · show q = x.layOn s.program
    rw [h.2, Sighting.layOn, Sighting.laid, if_neg (by simp [h.1])]
    rfl

/-- The label of a global is put there, if its name is one. -/
theorem placeLabel_lays (v : Variable) (s : Session) :
    Runs (onRejection (do
        discard (edit (Program.createLabel (.ofInt v.storage.globalAddress) v.common.name true)))
      (reportFault globalsSource)) s
      (fun _ t => t.program = (checkName v.common.name).toOption.elim s.program
        (s.program.withPrimary v.storage.globalAddress)) fun _ _ => True := by
  refine runs_orReport (P := (· = (checkName v.common.name).toOption.elim s.program
    (s.program.withPrimary v.storage.globalAddress))) ?_
  refine (Runs.map_iff _ _).mpr ?_
  rw [runs_edit]
  refine runs_createLabel.mono (fun _ q h => ?_) fun _ q h => ?_
  · obtain ⟨given, hname, rfl⟩ := h
    rw [hname]
    rfl
  · rw [h.1, h.2]
    rfl

/-- What is resolved for a global is what is seen of it, and nothing but types is changed. -/
theorem resolveGlobal_lays (v : Variable) (s : Session) :
    Runs (inside 1 (variableTypeOf (some v.type))) s
      (fun type t => s.sighted v = some { type, length := t.program.arena.length type } ∧
        0 < t.program.arena.length type ∧ t.program =
          { s.program with arena := t.program.arena, registry := t.program.registry })
      fun _ _ => True := by
  have seen : Runs (inside 1 (variableTypeOf (some v.type))) s
      (fun type t => s.sighted v = some { type, length := t.program.arena.length type })
      fun _ _ => True := by
    refine (Runs.self _ s).mono (fun type t hrun => ?_) fun _ _ _ => trivial
    rw [Session.sighted, hrun]
  have sized : Runs (inside 1 (variableTypeOf (some v.type))) s
      (fun type t => 0 < t.program.arena.length type) fun _ _ => True := by
    rw [runs_inside]
    split
    · exact variableType_sized _ _
    · trivial
  have framed :=
    Preserves.inside (R := GuardedFrame fun _ => True) 1 (variableTypeOf_frame v.type) s
  refine ((seen.and sized).and framed).mono (fun type t h => ?_) fun _ _ _ => trivial
  exact ⟨h.1.1, h.1.2, (h.2 (.inl fun _ => trivial)).program⟩

theorem placeGlobal_lays (positive : ∀ e ∈ s.program.data.entries, 0 < e.2.length) (v : Variable) :
    Runs (placeGlobal v) s (fun _ t => ∃ item, Lays ⟨v, item⟩ s t) fun _ _ => True := by
  rw [placeGlobal, Runs.bind_iff]
  refine (resolveGlobal_lays v s).mono (fun type t₁ h => ?_) fun _ _ _ => trivial
  obtain ⟨sighted, long, frame⟩ := h
  let x : Sighting := ⟨v, { type, length := t₁.program.arena.length type }⟩
  have positive₁ : ∀ e ∈ t₁.program.data.entries, 0 < e.2.length := by
    rw [frame]
    exact positive
  rw [Runs.bind_iff]
  refine (placeData_lays (x := x) positive₁ rfl).mono (fun _ t₂ h₂ => ?_) fun _ _ _ => trivial
  rw [Runs.bind_iff]
  refine (placeLabel_lays v t₂).mono (fun _ t₃ h₃ => ?_) fun _ _ _ => trivial
  show ∃ item, Lays ⟨v, item⟩ s { t₃ with stats := _ }
  have same : t₃.program.data = t₂.program.data ∧ t₃.program.memory = t₂.program.memory ∧
      t₃.program.functions = t₂.program.functions := by
    rw [h₃]
    cases (checkName v.common.name).toOption <;> exact ⟨rfl, rfl, rfl⟩
  have laid : x.laid t₁.program = x.laid s.program := x.laid_congr (by rw [frame]) (by rw [frame])
  refine ⟨x.item, sighted, long, ?_, ?_, ?_, fun address => ?_⟩
  · rw [same.2.1, h₂, Sighting.layOn, frame]
  · rw [same.2.2, h₂, Sighting.layOn, frame]
  · rw [same.1, h₂, Sighting.layOn, laid, frame]
  · rw [h₃, symbolsAt_label, h₂, Sighting.layOn, frame]
    rfl

/-! ## A round -/

/-- What is seen of the globals with an address, in their order. -/
def sightings : List Variable → Session → List Sighting
  | [], _ => []
  | v :: rest, s =>
      let t := (isCancelled s).2
      if v.storage.globalAddress ≥ 0 then
        ((t.sighted v).map (⟨v, ·⟩)).toList ++ sightings rest (placeGlobal v t).2
      else sightings rest t

/-- What becomes of the globals. -/
structure LaysAll (vs : List Variable) (s t : Session) : Prop where
  seen : (sightings vs s).map (·.global) = addressed vs
  positive : ∀ x ∈ sightings vs s, 0 < x.item.length
  data : t.program.data =
    ⟨((sightings vs s).flatMap (·.laid s.program)).foldl (layOver overlays) s.program.data.entries⟩
  symbolsAt : ∀ address, t.program.symbolsAt address =
    labelledAll (.ofInt address) (labelsAt (addressed vs) address) (s.program.symbolsAt address)

namespace LaysAll

theorem skip (haddress : ¬ v.storage.globalAddress ≥ 0) (h : LaysAll vs (isCancelled s).2 t) :
    LaysAll (v :: vs) s t := by
  have seen : sightings (v :: vs) s = sightings vs (isCancelled s).2 := by
    rw [sightings, if_neg haddress]
  have rest : addressed (v :: vs) = addressed vs :=
    List.filter_cons_of_neg (by simpa using haddress)
  refine ⟨?_, ?_, ?_, fun address => ?_⟩
  · rw [seen, rest]
    exact h.seen
  · rw [seen]
    exact h.positive
  · rw [seen]
    exact h.data
  · rw [rest]
    exact h.symbolsAt address

theorem next (haddress : v.storage.globalAddress ≥ 0) {item : DataItem}
    (lays : Lays ⟨v, item⟩ (isCancelled s).2 (placeGlobal v (isCancelled s).2).2)
    (h : LaysAll vs (placeGlobal v (isCancelled s).2).2 t) : LaysAll (v :: vs) s t := by
  have seen : sightings (v :: vs) s =
      ⟨v, item⟩ :: sightings vs (placeGlobal v (isCancelled s).2).2 := by
    rw [sightings, if_pos haddress, lays.sighted]
    rfl
  have rest : addressed (v :: vs) = v :: addressed vs :=
    List.filter_cons_of_pos (by simpa using haddress)
  have same (x : Sighting) :
      x.laid (placeGlobal v (isCancelled s).2).2.program = x.laid s.program :=
    x.laid_congr lays.memory lays.functions
  refine ⟨?_, ?_, ?_, fun address => ?_⟩
  · rw [seen, rest, List.map_cons, h.seen]
  · rw [seen]
    exact List.forall_mem_cons.mpr ⟨lays.positive, h.positive⟩
  · rw [h.data, lays.data, seen, List.flatMap_cons, List.foldl_append]
    simp only [same]
    rfl
  · rw [h.symbolsAt, lays.symbolsAt, rest, labelsAt, labelsAt]
    cases hlabel : labelOf address v with
    | none => rw [List.filterMap_cons_none hlabel]; rfl
    | some given => rw [List.filterMap_cons_some hlabel]; rfl

end LaysAll

/-! ## What is left of it -/

/-- It was accepted, and nothing that was accepted later reaches into it. -/
def Outlasts (p : Program) (seen : List Sighting) (e : Int × DataItem) : Prop :=
  ∃ before x after, seen = before ++ x :: after ∧ x.entry = e ∧ p.Accepts e ∧
    ∀ y ∈ after, p.Accepts y.entry → overlays y.entry e = false

section

variable {p : Program} {seen : List Sighting}
  (told : ∀ x ∈ seen, (p.admits x.entry.1 x.item.length = true ↔ p.Accepts x.entry))

theorem flatMap_laid (p : Program) (seen : List Sighting) : seen.flatMap (·.laid p) =
    (seen.filter fun x => p.admits x.entry.1 x.item.length).map (·.entry) := by
  induction seen with
  | nil => rfl
  | cons x seen ih =>
      rw [List.flatMap_cons, ih, Sighting.laid, List.filter_cons]
      split <;> rfl

include told

theorem any_laid_iff : ((seen.flatMap (·.laid p)).any (overlays · e)) = false ↔
    ∀ x ∈ seen, p.Accepts x.entry → overlays x.entry e = false := by
  rw [flatMap_laid, List.any_eq_false, List.forall_mem_map]
  refine ⟨fun h x hx accepted => ?_, fun h x hx => ?_⟩
  · simpa using h x (List.mem_filter.mpr ⟨hx, (told x hx).mpr accepted⟩)
  · obtain ⟨hx, admitted⟩ := List.mem_filter.mp hx
    simpa using h x hx ((told x hx).mp admitted)

theorem mem_survivors_laid_iff :
    e ∈ survivors overlays (seen.flatMap (·.laid p)) ↔ Outlasts p seen e := by
  rw [mem_survivors_iff]
  constructor
  · rintro ⟨before, after, he, hafter⟩
    rw [flatMap_laid] at he
    obtain ⟨first, rest, hfilter, -, hrest⟩ := List.map_eq_append_iff.mp he
    obtain ⟨before', rest', rfl, -, rfl⟩ := List.filter_eq_append_iff.mp hfilter
    obtain ⟨x, last, hlast, rfl, hafter'⟩ := List.map_eq_cons_iff.mp hrest
    obtain ⟨middle, after', rfl, -, admitted, rfl⟩ := List.filter_eq_cons_iff.mp hlast
    refine ⟨before' ++ middle, x, after', (List.append_assoc ..).symm, rfl,
      (told x (by simp)).mp admitted, fun y hy accepted => hafter y.entry ?_⟩
    rw [← hafter']
    exact List.mem_map_of_mem (List.mem_filter.mpr ⟨hy, (told y (by simp [hy])).mpr accepted⟩)
  · rintro ⟨before, x, after, rfl, rfl, accepted, hafter⟩
    have admitted := (told x (by simp)).mpr accepted
    refine ⟨before.flatMap (·.laid p), after.flatMap (·.laid p), ?_, fun b hb => ?_⟩
    · rw [List.flatMap_append, List.flatMap_cons, Sighting.laid, if_pos admitted]
      rfl
    · obtain ⟨y, hy, hb⟩ := List.mem_flatMap.mp hb
      rw [Sighting.laid] at hb
      split at hb
      · next admitted' =>
          obtain rfl := List.mem_singleton.mp hb
          exact hafter y hy ((told y (by simp [hy])).mp admitted')
      · cases hb

end

theorem importGlobalsFrom_lays (positive : ∀ e ∈ s.program.data.entries, 0 < e.2.length)
    (vs : List Variable) : Runs (importGlobalsFrom vs) s
      (fun _ t => t.monitor.isCancelled = false → LaysAll vs s t) fun _ _ => True := by
  induction vs generalizing s with
  | nil =>
      rw [importGlobalsFrom, Runs.pure_iff]
      exact fun _ => ⟨rfl, fun _ hx => absurd hx List.not_mem_nil, rfl, fun _ => rfl⟩
  | cons v rest ih =>
      rw [importGlobalsFrom_step, Runs.bind_iff]
      let t := (isCancelled s).2
      show Runs (if s.monitor.check.1 = true then pure () else do
        takeUpGlobal v
        importGlobalsFrom rest) t _ _
      split
      · next hcancelled =>
          have cancelled : t.monitor.isCancelled = true :=
            (Monitor.check_isCancelled s.monitor).trans hcancelled
          rw [Runs.pure_iff]
          exact fun hgoes => absurd (cancelled.symm.trans hgoes) (by decide)
      rw [Runs.bind_iff, takeUpGlobal]
      by_cases haddress : v.storage.globalAddress ≥ 0
      · rw [if_pos haddress]
        have placed := placeGlobal_lays (s := t) positive v
        rw [Runs] at placed ⊢
        rcases hrun : placeGlobal v t with ⟨e | ⟨⟩, u⟩
        · trivial
        · rw [hrun] at placed
          obtain ⟨item, lays⟩ := placed
          have positive' : ∀ e ∈ u.program.data.entries, 0 < e.2.length := by
            rw [lays.data]
            exact positive_foldl_overlays positive (Sighting.positive_laid lays.positive)
          refine (ih positive').mono (fun _ w h hgoes => ?_) fun _ _ _ => trivial
          obtain rfl : u = (placeGlobal v t).2 := by rw [hrun]
          exact .next haddress lays (h hgoes)
      · rw [if_neg haddress, Runs.pure_iff]
        exact (ih (s := t) positive).mono (fun _ u h hgoes => .skip haddress (h hgoes))
          fun _ _ _ => trivial

/-- What a stage over these globals leaves. -/
structure GlobalsLaid (globals : List Variable) (seen : List Sighting) (p q : Program) : Prop where
  each : seen.map (·.global) = addressed globals
  distinct : q.data.Distinct
  data : ∀ e, e ∈ q.data.entries ↔ Outlasts p seen e ∨
    e ∈ p.data.entries ∧ ∀ x ∈ seen, p.Accepts x.entry → overlays x.entry e = false
  named : ∀ address, labelsAt (addressed globals) address ≠ [] →
    Carries (labelsAt (addressed globals) address) (q.symbolsAt address)
  unnamed : ∀ address, labelsAt (addressed globals) address = [] →
    q.symbolsAt address = p.symbolsAt address

theorem LaysAll.globalsLaid (h : LaysAll vs s t) (distinct : s.program.data.Distinct)
    (positive : ∀ e ∈ s.program.data.entries, 0 < e.2.length) :
    GlobalsLaid vs (sightings vs s) s.program t.program := by
  have told : ∀ x ∈ sightings vs s,
      (s.program.admits x.entry.1 x.item.length = true ↔ s.program.Accepts x.entry) := by
    intro x hx
    have hmem : x.global ∈ addressed vs := h.seen ▸ List.mem_map_of_mem hx
    exact admits_iff (of_decide_eq_true (List.mem_filter.mp hmem).2) (h.positive x hx)
  refine ⟨h.seen, ?_, fun e => ?_, fun address hne => ?_, fun address heq => ?_⟩
  · rw [h.data]
    refine distinct_foldl_overlays distinct positive fun e he => ?_
    obtain ⟨x, hx, he⟩ := List.mem_flatMap.mp he
    exact Sighting.positive_laid (h.positive x hx) e he
  · rw [h.data, foldl_layOver, List.mem_append, List.mem_filter, Bool.not_eq_true',
      any_laid_iff told, mem_survivors_laid_iff told]
    exact or_comm
  · rw [h.symbolsAt]
    exact carries_labelledAll address hne _
  · rw [h.symbolsAt, heq]
    rfl

theorem prepare_spares (s : Session) : Runs prepare s
    (fun _ t => t = (prepare s).2 ∧ t.program = s.program ∧ t.document = s.document)
    fun _ _ => True := by
  have spares : Runs prepare s (fun _ t => t.program = s.program ∧ t.document = s.document)
      fun _ _ => True := by
    rw [prepare, Runs.bind_iff, Runs.get_iff]
    split
    · exact ⟨rfl, rfl⟩
    · split
      · trivial
      · exact ⟨rfl, rfl⟩
  exact ((Runs.self prepare s).and spares).mono (fun _ _ h => ⟨by rw [h.1], h.2⟩)
    fun _ _ _ => trivial

/-- Unless it is cancelled, the stage of globals leaves the data and the labels that the globals
with an address tell, in their order, each of the type and the length that it has when it is taken
up. -/
theorem importGlobals_lays (hs : s.Sound) (room : s.room.allows (stageNeed s.document) = true)
    (distinct : s.program.data.Distinct)
    (positive : ∀ e ∈ s.program.data.entries, 0 < e.2.length) :
    let globals := s.document.files.flatMap (·.globals)
    ∃ t, importGlobals s = (.ok (), t) ∧
      (t.monitor.isCancelled = false →
        GlobalsLaid globals (sightings globals (prepare s).2) s.program t.program) := by
  intro globals
  have ends : Runs importGlobals s (fun _ _ => True) fun _ _ => False := by
    let g : Stage := ⟨s.document, fun _ => False, True, s.program.convention⟩
    have leads : g.Leads (stageNeed s.document) importGlobals fun _ => False :=
      Stage.Leads.importGlobals (settles_of_cuts _ _) hs.typed
    exact Runs.mono (leads ⟨hs.ready, rfl⟩ room) (fun _ _ _ => trivial) fun _ _ h => h.2.2
  have laid : Runs importGlobals s (fun _ t => t.monitor.isCancelled = false →
      GlobalsLaid globals (sightings globals (prepare s).2) s.program t.program)
      fun _ _ => True := by
    rw [importGlobals, Runs.bind_iff]
    refine (prepare_spares s).mono (fun _ t h => ?_) fun _ _ _ => trivial
    obtain ⟨rfl, program, document⟩ := h
    rw [Runs.bind_iff, Runs.get_iff, document]
    refine (importGlobalsFrom_lays (program ▸ positive) globals).mono
      (fun _ t h hgoes => ?_) fun _ _ _ => trivial
    have h := (h hgoes).globalsLaid (program ▸ distinct) (program ▸ positive)
    rwa [program] at h
  obtain ⟨⟨⟩, t, ht, h⟩ :=
    ((laid.and ends).mono (fun _ _ h => h.1) fun _ _ h => h.2).exists_ok
  exact ⟨t, ht, h⟩

/-- A global of a built-in type. -/
def placedVariable (serial : Nat) (name : String) (address : Int) (type : Document.BuiltInClass) :
    Variable where
  common := { serial, name := .text name }
  scope := .global
  storage :=
    { kind := .global, globalLocation := .data, globalAddress := address, register := .null,
      registerClass := .null, dbxRegister := -1, registerIndex := -1, isByReference := false,
      stackOffset := -1 }
  type := .builtIn { serial := serial + 1 } type

/-- A number that reaches from a block of memory into the next, one that reaches into data that is
there, and one into which another reaches. -/
def seamDocument : Document where
  files :=
    [{ common := { serial := 0 }
       path := .text "a.c"
       relativePath := .text "a.c"
       textAddress := 0
       functions := []
       globals :=
         [placedVariable 1 "word" 2 .signed32, placedVariable 3 "half" 6 .signed16,
          placedVariable 5 "whole" 8 .signed32, placedVariable 7 "late" 10 .signed16]
       typeNumbers := {} }]
  size := 9

def seamProgram : Program where
  arena := ({} : Arena).push (builtInType .unsigned8)
  memory := [(0, 3), (4, 15)]
  data := ⟨[(5, { type := 0, length := 2 }), (14, { type := 0, length := 1 })]⟩

def seamSession : Session := { document := seamDocument, program := seamProgram }

theorem placedVariable_wellTyped (serial : Nat) (name : String) (address : Int)
    (type : Document.BuiltInClass) :
    Document.WellTypedVariable (placedVariable serial name address type) :=
  ⟨.inr ⟨name, rfl⟩, Document.Node.wellTyped_builtIn (.inl rfl) _⟩

theorem seamDocument_wellTyped : seamDocument.WellTyped := by
  refine ⟨nofun, ?_⟩
  simp only [seamDocument, List.forall_mem_singleton]
  exact ⟨⟨"a.c", rfl⟩, ⟨"a.c", rfl⟩, by simp, by simp [placedVariable_wellTyped]⟩

theorem seamSession_isNew : seamSession.IsNew where
  document := seamDocument_wellTyped
  program :=
    { arena := Arena.sound_empty.push (.builtIn _ _ _ _ _)
      lt_size := nofun
      text := nofun
      own := nofun }
  naming := rfl
  knowsPointerSize := rfl
  table := rfl
  isPrepared := rfl
  cache := rfl
  room := rfl

theorem seamProgram_distinct : seamProgram.data.Distinct := by
  rw [Ledger.Distinct]
  decide

theorem importGlobals_lays_seam :
    let globals := seamSession.document.files.flatMap (·.globals)
    ∃ t, importGlobals seamSession = (.ok (), t) ∧
      (t.monitor.isCancelled = false →
        GlobalsLaid globals (sightings globals (prepare seamSession).2) seamSession.program
          t.program) :=
  importGlobals_lays seamSession_isNew.sound (Room.allows_none _)
    seamProgram_distinct (by decide)

/-- Every byte of the first is in memory, where no function is and no later one reaches, and it gets
no data. -/
theorem importGlobals_seam : ∃ word half whole late : DataItem,
    (sightings (seamDocument.files.flatMap (·.globals)) (prepare seamSession).2).map (·.entry) =
        [(2, word), (6, half), (8, whole), (10, late)] ∧
      (∀ address, 2 ≤ address → address < 2 + word.length →
        ∃ block ∈ seamSession.program.memory, block.1 ≤ address ∧ address ≤ block.2) ∧
      seamSession.program.functions = {} ∧
      (∀ e ∈ [(6, half), (8, whole), (10, late)], overlays e (2, word) = false) ∧
      (importGlobals seamSession).1 = .ok () ∧
      (importGlobals seamSession).2.monitor.isCancelled = false ∧
      (importGlobals seamSession).2.program.data.entries =
        [(14, { type := 0, length := 1 }), (6, half), (10, late)] := by
  refine ⟨{ type := 1, length := 4 }, { type := 2, length := 2 }, { type := 1, length := 4 },
    { type := 2, length := 2 }, by decide +kernel, fun address hle hlt => ?_, rfl, by decide,
    by decide +kernel, by decide +kernel, by decide +kernel⟩
  show ∃ block ∈ [((0 : Int), (3 : Int)), (4, 15)], block.1 ≤ address ∧ address ≤ block.2
  have hlt : address < 6 := hlt
  rcases Int.lt_or_le address 4 with h | h
  · exact ⟨(0, 3), by simp, by simp only; omega, by simp only; omega⟩
  · exact ⟨(4, 15), by simp, by simp only; omega, by simp only; omega⟩

end Import

end StabsImport

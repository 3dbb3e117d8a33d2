import StabsImport.Proofs.GlobalRounds

/-!
# Two rounds over functions and globals

After a round over the definitions and one over the globals, another two of the same kind leave the
tables as they were but for types that look alike and for the order of the labels at an address.
Main statements: `Rerun.functions`, `Rerun.comments`, `Rerun.data`, `Rerun.keys`, `Rerun.listed`.
-/

namespace StabsImport

open Document (FunctionDefinition SourceFile Variable Node)

namespace Ledger

variable {κ ν β : Type} [Key κ]

/-- A table answers what its entries hold, whatever their values are replaced by. -/
theorem get?_map (l : Ledger κ ν) (g : ν → β) (k : κ) :
    (Ledger.mk (l.entries.map fun e => (e.1, g e.2))).get? k = (l.get? k).map g := by
  obtain ⟨es⟩ := l
  simp only [get?]
  induction es with
  | nil => rfl
  | cons e es ih =>
      rw [List.map_cons, find, find]
      split
      · rfl
      · exact ih

/-- Which keys are there is told by the keys alone. -/
theorem get?_eq_none_congr {l l' : Ledger κ ν} (keys : l'.keys = l.keys) (k : κ) :
    l'.get? k = none ↔ l.get? k = none := by
  have told (l : Ledger κ ν) : l.get? k = none ↔ ∀ k' ∈ l.keys, Key.same k' k = false := by
    rw [get?_eq_none_iff, Ledger.keys, List.forall_mem_map]
  rw [told, told, keys]

end Ledger

namespace Import

open Program

variable {d : Document} {pointerSize : Int} {s t₁ t₂ w t₃ t₄ : Session} {blocks : List (Int × Int)}
  {l : List (FunctionDefinition × SourceFile)} {vs : List Variable}

/-- The data of a session with types that stand for all that look alike. -/
noncomputable def itemAlike (v : Session) (e : Int × DataItem) : Int × DataItem :=
  (e.1, { e.2 with type := v.alike e.2.type })

theorem itemsOf_alike (v : Session) (p : Program) (ids : List TypeId) :
    (itemsOf p v.lengthOf vs ids).map (itemAlike v) =
      itemsOf p v.lengthOf vs (ids.map v.alike) := by
  have one (e : Variable × TypeId) : (itemOf p v.lengthOf e).toList.map (itemAlike v) =
      (itemOf p v.lengthOf (e.1, v.alike e.2)).toList := by
    have length : v.lengthOf (v.alike e.2) = v.lengthOf e.2 :=
      congrArg Look.length (v.look_alike e.2)
    rw [itemOf, itemOf, length]
    split <;> rfl
  rw [itemsOf, itemsOf, List.map_flatMap, List.zip_map_right, List.flatMap_map]
  exact List.flatMap_congr fun e _ => one e

theorem overlays_self {p : Program} {length : TypeId → Int} {ids : List TypeId}
    {e : Int × DataItem} (h : e ∈ itemsOf p length vs ids) : overlays e e = true := by
  obtain ⟨g, -, he⟩ := List.mem_flatMap.mp h
  rw [itemOf] at he
  split at he
  · next admitted =>
      obtain rfl := List.mem_singleton.mp he
      simp only [admits, Bool.and_eq_true, decide_eq_true_eq] at admitted
      simp only [overlays, dataMeets, Bool.and_eq_true, decide_eq_true_eq]
      have positive := admitted.1.1
      omega
  · cases he

/-- What the definitions told stands there once the globals are placed. -/
theorem Round.inPlace_after (h : Round d pointerSize blocks l s t₁) (apart : l.Pairwise Apart)
    (h₁ : t₁.Sound) (globals : GlobalRound d pointerSize blocks vs t₁ t₂) :
    ∀ x ∈ l, InPlace x t₂ t₂.program := by
  intro x hx
  refine ((h.inPlace apart x hx).mono (fun entry _ => ?_) ?_).recalled (globals.upholds.recalls h₁)
  · rw [Program.function?, Program.function?, globals.functions]
  · rw [Program.sites, Program.sites, globals.functions]
    exact List.Subset.refl _

/-- A round was made over these definitions, and one over these globals. -/
structure Pass (d : Document) (pointerSize : Int) (blocks : List (Int × Int))
    (l : List (FunctionDefinition × SourceFile)) (vs : List Variable) (s t u : Session) : Prop where
  round : Round d pointerSize blocks l s t
  globals : GlobalRound d pointerSize blocks vs t u
  sound : t.Sound
  between : t.program.Consistent blocks
  consistent : u.program.Consistent blocks
  answered : Answered (l.flatMap (asked t.program) ++ vs.map askOf) s u

theorem Pass.upholds (h : Pass d pointerSize blocks l vs s t₁ t₂) : Upholds s t₂ :=
  h.round.upholds.trans h.globals.upholds

theorem Pass.inPlace (h : Pass d pointerSize blocks l vs s t₁ t₂) (apart : l.Pairwise Apart) :
    ∀ x ∈ l, InPlace x t₂ t₂.program :=
  h.round.inPlace_after apart h.sound h.globals

theorem Pass.holdsTypes (h : Pass d pointerSize blocks l vs s t₁ t₂) (hs : HoldsTypes s.program) :
    HoldsTypes t₂.program :=
  h.globals.holdsTypes (h.round.holdsTypes hs)

/-- After a pass another was made, by a session that starts with the tables that the first left. -/
structure Rerun (d : Document) (pointerSize : Int) (blocks : List (Int × Int))
    (l : List (FunctionDefinition × SourceFile)) (vs : List Variable) (s t₁ t₂ w t₃ t₄ : Session) :
    Prop where
  apart : l.Pairwise Apart
  first : Pass d pointerSize blocks l vs s t₁ t₂
  second : Pass d pointerSize blocks l vs w t₃ t₄
  same : SameTables t₂.program w.program
  memory : w.program.memory = t₂.program.memory
  outputLines : w.outputLines = t₂.outputLines
  markInlined : w.markInlined = t₂.markInlined

namespace Rerun

variable (h : Rerun d pointerSize blocks l vs s t₁ t₂ w t₃ t₄)

include h

theorem inPlace :
    ∀ x ∈ l, InPlace x t₂ w.program := by
  intro x hx
  refine (h.first.inPlace h.apart x hx).mono (fun entry _ => ?_) ?_
  · exact congrFun h.same.function? entry
  · rw [Program.sites, Program.sites, h.same.functions]
    exact List.Subset.refl _

/-- The second pass makes no function. -/
theorem function?_none (entry : Int) :
    t₃.program.function? entry = none ↔ t₁.program.function? entry = none := by
  rw [h.second.round.function?_none h.apart h.inPlace, h.same.function?, Program.function?,
    h.first.globals.functions]
  exact Iff.rfl

theorem hasFunction (x : FunctionDefinition) :
    hasFunction x t₃.program = hasFunction x t₁.program :=
  hasFunction_congr fun entry _ => h.function?_none entry

/-- It asks for the types that the first pass asked for. -/
theorem asked : l.flatMap (asked t₃.program) = l.flatMap (asked t₁.program) := by
  have same : Import.asked t₃.program = Import.asked t₁.program := by
    funext x
    rw [Import.asked, Import.asked, h.hasFunction]
  rw [same]

/-- All comments are written that were, with the same texts. -/
theorem comments : t₄.program.comments = t₂.program.comments := by
  have up := h.first.upholds
  have same : written w.outputLines w.markInlined t₃.program =
      written s.outputLines s.markInlined t₁.program := by
    funext x
    rw [written, written, h.hasFunction, h.outputLines, h.markInlined, up.outputLines,
      up.markInlined]
  rw [h.second.globals.comments, h.second.round.comments h.apart, same, h.same.comments,
    h.first.globals.comments, h.first.round.comments h.apart, Ledger.putAll_putAll]

variable (recalls : Recalls t₂ t₄)

include recalls

/-- The second round over the definitions changes functions no more than types that look alike, and
adds no address to those that have symbols. -/
theorem again :
    t₄.functionsAlike t₃.program = t₄.functionsAlike t₂.program ∧
      t₃.program.symbols.keys = t₂.program.symbols.keys := by
  have again := h.second.round.again (h.same.consistent h.memory h.first.consistent) h.apart
    h.inPlace recalls h.second.globals.upholds
  rwa [Session.functionsAlike, Session.functionsAlike, h.same.functions, h.same.symbols] at again

/-- The second pass changes functions no more than types that look alike. -/
theorem functions :
    t₄.functionsAlike t₄.program = t₄.functionsAlike t₂.program := by
  rw [Session.functionsAlike, h.second.globals.functions]
  exact (h.again recalls).1

theorem function? (entry : Int) :
    (t₃.program.function? entry).map (·.retyped t₄.alike) =
      (t₁.program.function? entry).map (·.retyped t₄.alike) := by
  have same := h.functions recalls
  rw [Session.functionsAlike, Session.functionsAlike, h.second.globals.functions,
    h.first.globals.functions] at same
  rw [Program.function?, Program.function?, ← Ledger.get?_map, ← Ledger.get?_map, same]

theorem name (entry : Int) :
    (t₃.program.function? entry).map (·.name) = (t₁.program.function? entry).map (·.name) := by
  have same := congrArg (Option.map Function.name) (h.function? recalls entry)
  rwa [Option.map_map, Option.map_map] at same

theorem sites :
    t₃.program.sites = t₁.program.sites := by
  have told (p : Program) : p.sites =
      (t₄.functionsAlike p).map fun e => (e.1, e.2.bare) := by
    rw [Session.functionsAlike, List.map_map]
    rfl
  have same := h.functions recalls
  rw [Session.functionsAlike, Session.functionsAlike, h.second.globals.functions,
    h.first.globals.functions] at same
  rw [told, told, Session.functionsAlike, Session.functionsAlike, same]

/-- The same data is laid over what lies there. -/
theorem data :
    t₄.program.data.entries.map (itemAlike t₄) = t₂.program.data.entries.map (itemAlike t₄) := by
  obtain ⟨ids, hids, hdata⟩ := h.first.globals.data
  obtain ⟨ids', hids', hdata'⟩ := h.second.globals.data
  have memory : t₃.program.memory = t₁.program.memory :=
    (h.second.round.upholds.memory.trans h.memory).trans h.first.globals.upholds.memory
  have items : itemsOf t₃.program t₄.lengthOf vs ids' = itemsOf t₁.program t₄.lengthOf vs ids' :=
    itemsOf_congr memory (h.sites recalls) fun _ _ => rfl
  have earlier : itemsOf t₁.program t₂.lengthOf vs ids = itemsOf t₁.program t₄.lengthOf vs ids :=
    (itemsOf_congr rfl rfl fun id hid => recalls.lengthOf (hids.lt_size hid)).symm
  have alike : ids'.map t₄.alike = ids.map t₄.alike :=
    Session.map_alike ((hids.mono recalls fun _ _ => recalls.variableLook).map_look hids')
  have laid (l items : List (Int × DataItem)) :
      (items.foldl (layOver overlays) l).map (itemAlike t₄) =
        (items.map (itemAlike t₄)).foldl (layOver overlays) (l.map (itemAlike t₄)) := by
    have same (e e' : Int × DataItem) : overlays (itemAlike t₄ e) (itemAlike t₄ e') =
        overlays e e' := rfl
    exact map_foldl_layOver _ same l items
  have refl : ∀ e ∈ itemsOf t₁.program t₄.lengthOf vs (ids.map t₄.alike), overlays e e = true :=
    fun e he => overlays_self he
  rw [hdata', h.second.round.data, h.same.data, hdata, items, earlier, laid, laid, itemsOf_alike,
    itemsOf_alike, alike, foldl_layOver_again refl]

/-- No address is added to those that have symbols. -/
theorem keys :
    t₄.program.symbols.keys = t₂.program.symbols.keys := by
  refine (h.second.globals.keys fun address hn => ?_).trans (h.again recalls).2
  rw [ne_eq, Ledger.get?_eq_none_congr (h.again recalls).2]
  exact h.first.globals.held (.inr hn)

/-- The labels at an address are as before, and so is the primary one; only their order may change. -/
theorem listed (address : Int) :
    (listed (t₄.program.symbolsAt address)).Perm (listed (t₂.program.symbolsAt address)) := by
  have fit : SymbolsFit (Whole.ofInt address).value _ _ := h.first.between.symbols.fit address
  have fit' : SymbolsFit (Whole.ofInt address).value _ _ := h.second.between.symbols.fit address
  rw [Whole.value_ofInt, h.name recalls] at fit'
  have labels := h.first.globals.symbolsAt address
  rw [h.second.globals.symbolsAt, labels]
  have renamed := h.second.round.renamed h.apart h.inPlace address
  rw [h.same.symbolsAt, h.same.function?] at renamed
  rcases renamed with same | ⟨x, hx, starts, hf, same⟩
  · refine fit.listed_labelledAll_again fit' (fun _ => true) (fun _ _ => rfl) ?_ fun _ => ?_
    · rw [same, labels, List.filter_true]
    · rw [same, labels, List.filter_true]
  · refine fit.listed_labelledAll_again fit' (isKept x.1.common.name) ?_ ?_ fun _ => ?_
    · refine h.first.round.clear h.apart x hx address starts ?_
      rwa [Program.function?, h.first.globals.functions] at hf
    · rw [same, listed_curated, labels]
    · rw [same, leading_curated, labels]

end Rerun

end Import

end StabsImport

import StabsImport.Proofs.CodeAndData
import StabsImport.Proofs.Independence

/-!
# What the functions of a document touch

A definition touches the program at its low address and under its own comments, and nowhere else.
-/

namespace StabsImport

open Document (FunctionDefinition SourceFile)
open Import (StartsAt noiseLabels)

namespace Program

variable {p q r : Program} {made more : List (FunctionDefinition × SourceFile)} {α : Type}

/-- Functions and symbols stand where they say they do. -/
structure Addressed (p : Program) : Prop where
  function : ∀ {entry f}, p.function? entry = some f → f.entry.value = entry
  symbol : ∀ {address s}, s ∈ p.symbolsAt address → s.address.value = address

theorem Consistent.addressed {blocks : List (Int × Int)} (h : p.Consistent blocks) :
    p.Addressed where
  function hf := h.entry_eq hf
  symbol {address s} hs := (h.symbols.fit address).here s hs

/-- One of the definitions starts at the address. -/
def IsLow (made : List (FunctionDefinition × SourceFile)) (address : Int) : Prop :=
  ∃ x ∈ made, StartsAt x.1 address

/-- A label that is no compiler's noise, and is not named like a definition that starts there. -/
structure IsCurated (made : List (FunctionDefinition × SourceFile)) (address : Int) (l : Symbol) :
    Prop where
  label : l.kind = .label
  noNoise : noiseLabels.contains l.name = false
  unclaimed : ∀ x ∈ made, StartsAt x.1 address → x.1.common.name ≠ .text l.name

/-- What the definitions leave as it was. -/
structure Spares (made : List (FunctionDefinition × SourceFile)) (p q : Program) : Prop where
  /-- The functions that start nowhere where a definition does, in all their fields. -/
  functions : ∀ {entry}, ¬ IsLow made entry → q.function? entry = p.function? entry
  /-- Of every function that was there, where it starts and its body. -/
  bodies : ∀ {entry f}, p.function? entry = some f →
    ∃ f', q.function? entry = some f' ∧ f'.entry = f.entry ∧ f'.body = f.body
  symbols : ∀ {address}, ¬ IsLow made address → q.symbolsAt address = p.symbolsAt address
  /-- But for their flags, the labels that are in nobody's way. -/
  labels : ∀ {address l}, l ∈ p.symbolsAt address → IsCurated made address l →
    ∃ l' ∈ q.symbolsAt address, { l' with primary := false } = { l with primary := false }
  data : q.data = p.data
  lines : ∀ {address}, (∀ x ∈ made, ∀ l ∈ x.1.lineNumbers, l.address ≠ address) →
    q.comments.get? (address, .eol) = p.comments.get? (address, .eol)
  crumbs : ∀ {address}, (∀ x ∈ made, ∀ b ∈ x.1.breadcrumbs, b.address ≠ address) →
    q.comments.get? (address, .pre) = p.comments.get? (address, .pre)
  plates : ∀ {address}, q.comments.get? (address, .plate) = p.comments.get? (address, .plate)

theorem IsLow.mono (h : made ⊆ more) {address : Int} : IsLow made address → IsLow more address
  | ⟨x, hx, hs⟩ => ⟨x, h hx, hs⟩

theorem IsCurated.of_unflagged {address : Int} {l l' : Symbol} (h : IsCurated made address l)
    (same : { l' with primary := false } = { l with primary := false }) :
    IsCurated made address l' := by
  obtain ⟨-, hname, hkind, -⟩ := Symbol.mk.inj same
  exact ⟨hkind.trans h.label, hname ▸ h.noNoise, hname ▸ h.unclaimed⟩

namespace Spares

theorem of_eq (functions : q.functions = p.functions) (symbols : q.symbols = p.symbols)
    (data : q.data = p.data) (comments : q.comments = p.comments) : p.Spares made q := by
  have hf : q.function? = p.function? := by
    funext entry
    rw [function?, function?, functions]
  have hs : q.symbolsAt = p.symbolsAt := by
    funext address
    rw [symbolsAt, symbolsAt, symbols]
  constructor
  · exact fun _ => congrFun hf _
  · exact fun {_ f} h => ⟨f, hf ▸ h, rfl, rfl⟩
  · exact fun _ => congrFun hs _
  · exact fun {_ l} h _ => ⟨l, hs ▸ h, rfl⟩
  · exact data
  all_goals
    intros
    rw [comments]

theorem trans (h : p.Spares made q) (h' : q.Spares made r) : p.Spares made r where
  functions hn := (h'.functions hn).trans (h.functions hn)
  bodies hf :=
    have ⟨_, hf', entry, body⟩ := h.bodies hf
    have ⟨f'', hf'', entry', body'⟩ := h'.bodies hf'
    ⟨f'', hf'', entry'.trans entry, body'.trans body⟩
  symbols hn := (h'.symbols hn).trans (h.symbols hn)
  labels hl hc :=
    have ⟨_, hl', same⟩ := h.labels hl hc
    have ⟨l'', hl'', same'⟩ := h'.labels hl' (hc.of_unflagged same)
    ⟨l'', hl'', same'.trans same⟩
  data := h'.data.trans h.data
  lines hn := (h'.lines hn).trans (h.lines hn)
  crumbs hn := (h'.crumbs hn).trans (h.crumbs hn)
  plates := h'.plates.trans h.plates

/-- More definitions leave less as it was. -/
theorem mono (h : p.Spares made q) (sub : made ⊆ more) : p.Spares more q where
  functions hn := h.functions fun hl => hn (hl.mono sub)
  bodies := h.bodies
  symbols hn := h.symbols fun hl => hn (hl.mono sub)
  labels hl hc := h.labels hl ⟨hc.label, hc.noNoise, fun x hx => hc.unclaimed x (sub hx)⟩
  data := h.data
  lines hn := h.lines fun x hx => hn x (sub hx)
  crumbs hn := h.crumbs fun x hx => hn x (sub hx)
  plates := h.plates

end Spares

/-- Where functions and symbols stand where they say, the definitions leave the rest as it was, and
this so. -/
def Within (made : List (FunctionDefinition × SourceFile)) (p q : Program) : Prop :=
  p.Addressed → q.Addressed ∧ p.Spares made q

instance : Untyped (Within made) where
  refl _ h := ⟨h, .of_eq rfl rfl rfl rfl⟩
  trans h h' hp := ⟨(h' (h hp).1).1, (h hp).2.trans (h' (h hp).1).2⟩
  types _ _ _ h := ⟨⟨h.function, h.symbol⟩, .of_eq rfl rfl rfl rfl⟩

namespace Within

theorem mono (h : Within made p q) (sub : made ⊆ more) : Within more p q :=
  fun hp => ⟨(h hp).1, (h hp).2.mono sub⟩

/-- A function is put where a definition starts, in the place of one like it or where there is
none. -/
theorem putFunction {entry : Int} {f : Function} (low : IsLow made entry)
    (here : p.Addressed → f.entry.value = entry)
    (like : ∀ g, p.function? entry = some g → f.entry = g.entry ∧ f.body = g.body) :
    Within made p { p with functions := p.functions.put entry f } := by
  intro hp
  have get (other : Int) : ({ p with functions := p.functions.put entry f } : Program).function?
      other = if entry = other then some f else p.function? other := by
    rw [function?, Ledger.get?_put]
    exact ite_congr decide_eq_true_eq (fun _ => rfl) fun _ => rfl
  refine ⟨⟨fun {other g} hg => ?_, hp.symbol⟩, ?_⟩
  · rw [get] at hg
    split at hg
    · next he =>
        cases hg
        exact (here hp).trans he
    · exact hp.function hg
  · have same : p.Spares made p := .of_eq rfl rfl rfl rfl
    refine { same with functions := ?_, bodies := ?_ }
    · intro other hn
      rw [get, if_neg]
      rintro rfl
      exact hn low
    · intro other g hg
      rw [get]
      split
      · next he =>
          subst he
          exact ⟨f, rfl, like g hg⟩
      · exact ⟨g, hg, rfl, rfl⟩

/-- Other symbols stand where a definition starts, and among them the labels in nobody's way. -/
theorem setSymbols {address : Whole} {symbols : List Symbol} (low : IsLow made address.value)
    (here : p.Addressed → ∀ s ∈ symbols, s.address.value = address.value)
    (labels : ∀ {l}, l ∈ p.symbolsAt address.value → IsCurated made address.value l →
      ∃ l' ∈ symbols, { l' with primary := false } = { l with primary := false }) :
    Within made p (p.setSymbols address symbols) := by
  intro hp
  refine ⟨⟨hp.function, fun {other s} hs => ?_⟩, ?_⟩
  · by_cases he : other = address.value
    · subst he
      rw [symbolsAt_setSymbols_self] at hs
      exact here hp s hs
    · rw [symbolsAt_setSymbols_of_ne p symbols he] at hs
      exact hp.symbol hs
  · have same : (p.setSymbols address symbols).Spares made (p.setSymbols address symbols) :=
      .of_eq rfl rfl rfl rfl
    refine { same with symbols := ?_, labels := ?_ }
    · intro other hn
      refine symbolsAt_setSymbols_of_ne p symbols ?_
      rintro rfl
      exact hn low
    · intro other l hl hc
      by_cases he : other = address.value
      · subst he
        rw [symbolsAt_setSymbols_self]
        exact labels hl hc
      · rw [symbolsAt_setSymbols_of_ne p symbols he]
        exact ⟨l, hl, rfl⟩

end Within

/-! ## The edits of a definition -/

variable {entry : Int}

theorem within_of_addressed {e : Edit α} (h : ∀ p, p.Addressed →
    Runs e p (fun _ q => Within made p q) fun _ q => Within made p q) :
    MovesWithin (Within made) e := by
  intro p
  by_cases hp : p.Addressed
  · exact h p hp
  · exact Runs.of_all (fun _ _ h => absurd h hp) fun _ _ h => absurd h hp

theorem editFunction_within (low : IsLow made entry) {f : Function → Function}
    (hentry : ∀ g, (f g).entry = g.entry) (hbody : ∀ g, (f g).body = g.body) :
    MovesWithin (Within made) (editFunction entry f) := by
  refine .modify fun p => ?_
  unfold Ledger.update
  split
  · next g hg =>
      refine .putFunction low (fun hp => (hentry g).symm ▸ hp.function hg) fun g' hg' => ?_
      obtain rfl : g = g' := Option.some.inj (hg.symm.trans hg')
      exact ⟨hentry g, hbody g⟩
  · exact Untyped.refl p

section

variable {symbols : List Symbol} {l s : Symbol} {address : Whole}

theorem mem_withSymbol (h : l ∈ symbols) :
    ∃ l' ∈ withSymbol symbols s, { l' with primary := false } = { l with primary := false } := by
  unfold withSymbol
  split
  · exact ⟨_, List.mem_append_left _ (List.mem_map_of_mem h), rfl⟩
  · exact ⟨l, List.mem_append_left _ h, rfl⟩

theorem address_withSymbol (all : ∀ t ∈ symbols, t.address.value = s.address.value) :
    ∀ t ∈ withSymbol symbols s, t.address.value = s.address.value := by
  intro t ht
  unfold withSymbol at ht
  rcases List.mem_append.mp ht with ht | ht
  · split at ht
    · obtain ⟨u, hu, rfl⟩ := List.mem_map.mp ht
      exact all u hu
    · exact all t ht
  · rw [List.mem_singleton.mp ht]

/-- A label keeps its place when the function is given its name. -/
theorem mem_nameFunctionSymbol (h : l ∈ symbols) (label : l.kind = .label) (address : Whole)
    (name : String) (source : SourceKind) :
    ∃ l' ∈ nameFunctionSymbol address name source symbols,
      { l' with primary := false } = { l with primary := false } := by
  unfold nameFunctionSymbol
  split
  · next index hindex =>
      obtain ⟨k, hk, rfl⟩ := List.getElem_of_mem h
      have hne : index ≠ k := by
        rintro rfl
        obtain ⟨_, hf, -⟩ := List.findIdx?_eq_some_iff_getElem.mp hindex
        simp [label] at hf
      refine ⟨symbols[k], List.mem_iff_getElem.mpr ⟨k, by simpa using hk, ?_⟩, rfl⟩
      rw [List.getElem_modify, if_neg hne]
  · exact mem_withSymbol h

theorem address_nameFunctionSymbol (all : ∀ t ∈ symbols, t.address.value = address.value)
    (name : String) (source : SourceKind) :
    ∀ t ∈ nameFunctionSymbol address name source symbols, t.address.value = address.value := by
  unfold nameFunctionSymbol
  split
  · intro t ht
    obtain ⟨k, hk, rfl⟩ := List.getElem_of_mem ht
    have old := all _ (List.getElem_mem (by simpa using hk : k < symbols.length))
    rw [List.getElem_modify]
    split <;> exact old
  · exact address_withSymbol all

end

theorem addSymbol_within {s : Symbol} (low : IsLow made s.address.value) :
    MovesWithin (Within made) (addSymbol s) :=
  .modify fun _ => .setSymbols low (fun hp => address_withSymbol fun _ => hp.symbol) fun hl _ =>
    mem_withSymbol hl

/-- A definition is renamed to its own name. -/
theorem renameFunction_within {x : FunctionDefinition × SourceFile} (hx : x ∈ made)
    (hs : StartsAt x.1 entry) (source : SourceKind) :
    MovesWithin (Within made) (renameFunction entry x.1.common.name source) := by
  have low : IsLow made entry := ⟨x, hx, hs⟩
  refine within_of_addressed fun p hp => ?_
  rw [renameFunction, Runs.bind_iff, runs_ofResult]
  split
  · next given hname =>
      obtain ⟨address, haddress, hvalue⟩ : ∃ address : Whole,
          (p.function? entry).elim (.ofInt entry) (·.entry) = address ∧ address.value = entry := by
        refine ⟨_, rfl, ?_⟩
        cases hf : p.function? entry with
        | none => rfl
        | some f => exact hp.function hf
      subst hvalue
      rw [Runs.bind_iff, Runs.get_iff, haddress, Runs.bind_iff, Runs.modify_iff]
      have placed : Within made p (p.setSymbols address (nameFunctionSymbol address given source
          ((p.symbolsAt address.value).filter (!isLabelNamed given ·)))) := by
        refine .setSymbols low (fun _ => ?_) fun {l} hl hc => ?_
        · exact address_nameFunctionSymbol (fun t ht => hp.symbol (List.mem_filter.mp ht).1) _ _
        · refine mem_nameFunctionSymbol (List.mem_filter.mpr ⟨hl, ?_⟩) hc.label _ _ _
          have hne : l.name ≠ given := by
            rintro rfl
            exact hc.unclaimed x hx hs (text_of_checkName hname)
          simp [isLabelNamed, hne]
      have renamed : MovesWithin (Within made) (editFunction address.value ({ · with name := given })) :=
        editFunction_within low (fun _ => rfl) fun _ => rfl
      exact Runs.mono (renamed _) (fun _ _ h => Untyped.trans placed h)
        fun _ _ h => Untyped.trans placed h
  · exact Untyped.refl p

theorem createFunction_within {x : FunctionDefinition × SourceFile} (hx : x ∈ made)
    {address : Whole} (hs : StartsAt x.1 address.value) {name : Json}
    (hname : name.holds = true → name = x.1.common.name) (body : Option (Whole × Bound))
    (source : SourceKind) :
    MovesWithin (Within made) (createFunction name address body source) := by
  have low : IsLow made address.value := ⟨x, hx, hs⟩
  intro p
  refine runs_createFunction (fun _ => Untyped.refl p) fun place => ?_
  generalize body.getD (address, .whole address) = range at place
  have placed : Within made p (p.placeFunction address range) := by
    refine Untyped.trans (.putFunction (f := newFunction address range) low (fun _ => rfl)
      fun g hg => ?_) (addSymbol_within (s := newFunctionSymbol address) low _)
    rw [function?, place.get?_eq_none] at hg
    cases hg
  split
  · next holds =>
      rw [hname holds]
      exact Runs.mono (renameFunction_within hx hs source _) (fun _ _ h => Untyped.trans placed h)
        fun _ _ h => Untyped.trans placed h
  · exact placed

/-- A symbol in the way is removed, or falls back to a default name. -/
theorem removeSymbolAt_within {x : FunctionDefinition × SourceFile} (hx : x ∈ made)
    (hs : StartsAt x.1 entry) {index : Nat} {p : Program}
    (stale : ∀ s, (p.symbolsAt entry)[index]? = some s →
      noiseLabels.contains s.name = true ∨ x.1.common.name = .text s.name) :
    Runs (removeSymbolAt entry index) p (fun _ q => Within made p q)
      fun _ q => Within made p q := by
  have low : IsLow made entry := ⟨x, hx, hs⟩
  by_cases hp : p.Addressed
  · rw [removeSymbolAt, Runs.modify_iff]
    dsimp only
    split
    · exact Untyped.refl p
    · next s hs' =>
        have hmem := List.mem_of_getElem? hs'
        obtain rfl := hp.symbol hmem
        -- a label in nobody's way is not the one to be removed
        have apart {l : Symbol} (hc : IsCurated made s.address.value l) : l.name ≠ s.name := by
          intro he
          rcases stale s hs' with h | h
          · rw [← he, hc.noNoise] at h
            cases h
          · exact hc.unclaimed x hx hs (he ▸ h)
        split
        · refine .setSymbols low (fun _ t ht => hp.symbol (List.mem_of_mem_eraseP ht)) ?_
          intro l hl hc
          refine ⟨l, (List.mem_eraseP_of_neg ?_).mpr hl, rfl⟩
          simp [Symbol.same, apart hc]
        · have fallen : Within made p (p.setSymbols s.address
              ((p.symbolsAt s.address.value).set index (defaultSymbol s.address.value s))) := by
            refine .setSymbols low (fun _ t ht => ?_) fun {l} hl hc => ?_
            · rcases List.mem_or_eq_of_mem_set ht with ht | rfl
              · exact hp.symbol ht
              · rfl
            · obtain ⟨k, hk, rfl⟩ := List.getElem_of_mem hl
              have hne : index ≠ k := by
                rintro rfl
                rw [List.getElem?_eq_getElem hk] at hs'
                exact apart hc (congrArg Symbol.name (Option.some.inj hs'))
              refine ⟨_, List.mem_iff_getElem.mpr ⟨k, by simpa using hk, ?_⟩, rfl⟩
              rw [List.getElem_set_ne hne]
          refine Untyped.trans fallen ?_
          exact editFunction_within low (fun _ => by rfl) (fun _ => by rfl) _
  · exact Runs.of_all (fun _ _ h => absurd h hp) fun _ _ h => absurd h hp

theorem setComment_within {address : Int} {kind : CommentKind} {text : String}
    (line : kind = .eol → ∃ x ∈ made, ∃ l ∈ x.1.lineNumbers, l.address = address)
    (crumb : kind = .pre → ∃ x ∈ made, ∃ b ∈ x.1.breadcrumbs, b.address = address)
    (plate : kind ≠ .plate) : MovesWithin (Within made) (setComment address kind (some text)) := by
  refine .modify fun p hp => ⟨⟨hp.function, hp.symbol⟩, ?_⟩
  have others {key : Int × CommentKind} (hne : key ≠ (address, kind)) :
      (p.comments.put (address, kind) text).get? key = p.comments.get? key :=
    Ledger.get?_put_of_not_same _ _ (decide_eq_false hne)
  have same : p.Spares made p := .of_eq rfl rfl rfl rfl
  refine { same with lines := ?_, crumbs := ?_, plates := ?_ }
  · intro other hn
    refine others fun he => ?_
    obtain ⟨rfl, rfl⟩ := Prod.mk.inj he
    obtain ⟨x, hx, l, hl, heq⟩ := line rfl
    exact hn x hx l hl heq
  · intro other hn
    refine others fun he => ?_
    obtain ⟨rfl, rfl⟩ := Prod.mk.inj he
    obtain ⟨x, hx, b, hb, heq⟩ := crumb rfl
    exact hn x hx b hb heq
  · intro other
    exact others fun he => plate (Prod.mk.inj he).2.symm

theorem replaceParameters_within (low : IsLow made entry) (parameters : List (Json × TypeId)) :
    MovesWithin (Within made) (replaceParameters entry parameters) := by
  refine .get fun p => MovesWithin.bind (.ofResult _) (fun named => ?_) p
  exact MovesWithin.bind (.view _) fun storage =>
    editFunction_within low (fun _ => by rfl) fun _ => by rfl

theorem addLocal_within (low : IsLow made entry) (name : Json) (type : TypeId)
    (stackOffset : Int) : MovesWithin (Within made) (addLocal entry name type stackOffset) := by
  refine within_of_addressed fun p hp => ?_
  have same : Within made p p := Untyped.refl p
  rw [addLocal, Runs.bind_iff, Runs.get_iff]
  split
  · exact same
  · next f hf =>
      rw [Runs.bind_iff, runs_ofResult]
      split
      · rw [Runs.bind_iff, runs_ofExcept]
        split
        · obtain rfl := hp.function hf
          refine .putFunction low (fun _ => rfl) fun g hg => ?_
          obtain rfl : f = g := Option.some.inj (hf.symm.trans hg)
          exact ⟨rfl, rfl⟩
        · exact same
      · exact same

end Program

namespace Import

open Program (Within MovesWithin Untyped)

variable {made : List (FunctionDefinition × SourceFile)} {x : FunctionDefinition × SourceFile}
  {d : FunctionDefinition} {file : SourceFile} {s t : Session}

theorem dropStale_within (hx : x ∈ made) {entry : Int} (hs : StartsAt x.1 entry)
    (symbols : List Symbol) : MovesWithin (Within made) (dropStale entry x.1.common.name symbols) := by
  induction symbols with
  | nil => exact .pure _
  | cons s rest ih =>
      rw [dropStale]
      split
      · next hstale =>
          refine MovesWithin.bind (.get fun p => ?_) fun _ => ih
          split
          · next index hindex =>
              refine Program.removeSymbolAt_within hx hs fun t ht => ?_
              obtain ⟨hlt, heq, -⟩ := List.findIdx?_eq_some_iff_getElem.mp hindex
              rw [List.getElem?_eq_getElem hlt, Option.some.injEq] at ht
              obtain rfl : t = s := ht ▸ eq_of_beq heq
              simpa [isStale] using hstale
          · exact (Untyped.refl p : Within made p p)
      · exact ih

theorem address_of_mem_boundaries {path : Json} {crumbs : List Breadcrumb} {inlined : Bool}
    {b : Boundary} (h : b ∈ boundariesFrom path inlined crumbs) :
    ∃ crumb ∈ crumbs, crumb.address = b.address := by
  induction crumbs generalizing inlined with
  | nil => cases h
  | cons crumb rest ih =>
      have later {inlined : Bool} (h : b ∈ boundariesFrom path inlined rest) :
          ∃ c ∈ crumb :: rest, c.address = b.address :=
        have ⟨c, hc, he⟩ := ih h
        ⟨c, List.mem_cons_of_mem _ hc, he⟩
      simp only [boundariesFrom] at h
      split at h
      · rcases List.mem_cons.mp h with rfl | h
        · exact ⟨crumb, List.mem_cons_self, rfl⟩
        · exact later h
      · split at h
        · rcases List.mem_cons.mp h with rfl | h
          · exact ⟨crumb, List.mem_cons_self, rfl⟩
          · exact later h
        · exact later h

/-- A definition makes its edits where it starts and under its own comments. -/
theorem functionEdits_within (hx : x ∈ made) : FunctionEdits (Within made) x.1 x.2 where
  make {low last} hbody := by
    have hs : StartsAt x.1 low.value := ⟨_, _, hbody, rfl⟩
    split
    · exact Program.createFunction_within hx hs (by simp [Json.holds]) _ _
    · exact Program.createFunction_within hx hs (fun _ => rfl) _ _
  drop hs := .get fun p => dropStale_within hx hs _ p
  rename hs := Program.renameFunction_within hx hs _
  comment hs := Program.editFunction_within ⟨x, hx, hs⟩ (fun _ => rfl) fun _ => rfl
  returns hs _ := Program.editFunction_within ⟨x, hx, hs⟩ (fun _ => rfl) fun _ => rfl
  parameters hs := Program.replaceParameters_within ⟨x, hx, hs⟩
  lines := .forM fun l hl => Program.setComment_within (fun _ => ⟨x, hx, l, hl, rfl⟩) nofun nofun
  inlined := .forM fun b hb =>
    Program.setComment_within nofun (fun _ => ⟨x, hx, address_of_mem_boundaries hb⟩) nofun
  locals hs := Program.addLocal_within ⟨x, hx, hs⟩

/-! ## One definition after another -/

/-- Takes up a definition, unless the work is cancelled: whether it made or updated a function, or
was skipped. -/
def importNext (x : FunctionDefinition × SourceFile) : ImportM (Option Bool) := do
  if ← isCancelled then return none
  let made ← if isComplete x.1 then importFunction x.1 x.2 else pure false
  if made then count fun t => { t with functions := t.functions + 1 } else skipped
  return some made

theorem importFunctionsFrom_cons (x : FunctionDefinition × SourceFile)
    (rest : List (FunctionDefinition × SourceFile)) :
    importFunctionsFrom (x :: rest) = (do
      match ← importNext x with
      | none => return
      | some _ => importFunctionsFrom rest) := by
  obtain ⟨d, file⟩ := x
  simp only [importFunctionsFrom, importNext, bind_assoc]
  refine bind_congr fun cancelled => ?_
  cases cancelled with
  | true => rfl
  | false =>
      cases isComplete d with
      | true =>
          simp only [Bool.false_eq_true, if_false, Bool.not_true, if_true, bind_assoc, pure_bind]
          refine bind_congr fun made => ?_
          cases made <;> rfl
      | false => rfl

/-- Which of the definitions made or updated a function when they were taken up one after another.
One that ended in a fault may have, and those after it, or after a cancellation, do not count. -/
def madeFrom : List (FunctionDefinition × SourceFile) → Session → List Bool
  | [], _ => []
  | x :: rest, s =>
      match importNext x s with
      | (.ok (some made), t) => made :: madeFrom rest t
      | (.ok none, _) => []
      | (.error _, _) => [true]

/-- Of a list, what is marked. -/
def pick {α : Type} : List Bool → List α → List α
  | true :: marks, a :: rest => a :: pick marks rest
  | false :: marks, _ :: rest => pick marks rest
  | _, _ => []

@[simp] theorem pick_nil {α : Type} (marks : List Bool) : pick marks ([] : List α) = [] := by
  cases marks with
  | nil => rfl
  | cons mark marks => cases mark <;> rfl

@[simp] theorem pick_no_marks {α : Type} (l : List α) : pick [] l = [] := by cases l <;> rfl

/-- A function that was refused left nothing behind, unless it is there all the same. -/
theorem createFunction_makes (name : Json) (entry : Whole) (body : Option (Whole × Bound))
    (source : SourceKind) (p : Program) :
    Runs (Program.createFunction name entry body source) p
      (fun _ q => q.functions.contains entry.value = true)
      fun _ q => q = p ∨ q.functions.contains entry.value = true := by
  refine Program.runs_createFunction (fun _ => .inl rfl) fun _ => ?_
  generalize body.getD (entry, .whole entry) = range
  have placed : (p.placeFunction entry range).functions.contains entry.value = true := by
    rw [Ledger.contains, ← Program.function?, Program.function?_placeFunction]
    rfl
  split
  · exact Runs.mono (Program.Structural.renameFunction (E := Program.SameCode) _ _ _ _)
      (fun _ _ h => h.entries _ placed) fun _ _ h => .inr (h.entries _ placed)
  · exact placed

theorem refuseFraction_idles (d : FunctionDefinition) (low : Binary64) (last : Bound)
    (s : Session) : Runs (refuseFraction d low last) s (fun _ _ => False) fun _ t => t = s := by
  rw [refuseFraction, Runs.bind_iff, Runs.get_iff]
  dsimp only
  split
  · rfl
  · split
    · split <;> rfl
    · rfl

theorem diagnose_idles (source message : String) (s : Session) :
    Runs (diagnose source message) s (fun _ t => t.Like s) fun _ _ => True := by
  rw [diagnose, Runs.bind_iff, runs_need]
  split
  · exact (Session.Like.refl s).aside _ _ s.stats s.stats
  · trivial

/-- Where no function is found or made, nothing was done. -/
theorem findOrMake_idles (d : FunctionDefinition) (low last : Bound) (s : Session) :
    Runs (findOrMake d low last) s (fun found t => found = none → t.Like s) fun _ _ => True := by
  have afterwards {t : Session} (h : t.Like s ∨ ∃ entry ∈ low.whole?,
      t.program.functions.contains entry = true) : foundAt t.program low = none → t.Like s := by
    intro hnone
    refine h.resolve_right fun held => ?_
    obtain ⟨entry, hentry, there⟩ := held
    rw [foundAt, Option.filter_eq_none_iff] at hnone
    exact hnone entry hentry there
  have make : Runs (makeAt d last low) s
      (fun _ t => ∃ entry ∈ low.whole?, t.program.functions.contains entry = true)
      fun _ t => t = s ∨ ∃ entry ∈ low.whole?, t.program.functions.contains entry = true := by
    cases low with
    | real x => exact Runs.mono (refuseFraction_idles d x last s) (fun _ _ h => h.elim) fun _ _ => .inl
    | whole low =>
        have made (name : Json) (body : Option (Whole × Bound)) :
            Runs (edit (Program.createFunction name low body .analysis)) s
              (fun _ t => t.program.functions.contains low.value = true)
              fun _ t => t = s ∨ t.program.functions.contains low.value = true := by
          rw [runs_edit]
          refine Runs.mono (createFunction_makes name low body .analysis s.program)
            (fun _ _ h => h) fun _ q hq => hq.imp_left ?_
          rintro rfl
          rfl
        have here {t : Session} (h : t.program.functions.contains low.value = true) :
            ∃ entry ∈ (Bound.whole low).whole?, t.program.functions.contains entry = true :=
          ⟨low.value, rfl, h⟩
        rw [makeAt, makeFunction]
        split
        · exact Runs.mono (made _ _) (fun _ _ h => here h) fun _ _ h => h.imp_right here
        · exact Runs.mono (made _ _) (fun _ _ h => here h) fun _ _ h => h.imp_right here
  rw [runs_findOrMake]
  cases foundAt s.program low with
  | some entry => exact fun h => absurd h (Option.some_ne_none entry)
  | none =>
      refine Runs.mono make (fun _ t ht => afterwards (.inr ht)) fun e t ht => ?_
      split
      · refine Runs.mono (diagnose_idles _ _ t) (fun _ u hu => afterwards ?_) fun _ _ _ => trivial
        rcases ht with rfl | ht
        · exact .inl hu
        · exact .inr (by rwa [← hu.program])
      · trivial

/-- A definition without a function in the end was left out altogether. -/
theorem importFunction_idles (d : FunctionDefinition) (file : SourceFile) (s : Session) :
    Runs (importFunction d file) s (fun made t => made = false → t.Like s) fun _ _ => True := by
  rw [importFunction, Runs.bind_iff]
  cases hbody : bodyOf d with
  | error e => trivial
  | ok range =>
      refine (Runs.bind_iff _ _).mpr ?_
      refine Runs.mono (findOrMake_idles d _ _ s) (fun found t ht => ?_) fun _ _ _ => trivial
      cases found with
      | none => exact fun _ => ht rfl
      | some entry =>
          have after {α : Type} (m : ImportM α) {f : α → ImportM Bool}
              (h : ∀ a u, Runs (f a) u (fun made _ => made = true) fun _ _ => True)
              (u : Session) : Runs (m >>= f) u (fun made _ => made = true) fun _ _ => True := by
            rw [Runs.bind_iff]
            exact Runs.of_all (fun a v => h a v) fun _ _ => trivial
          have told : Runs (do
              nameFunction entry d file
              setReturnType entry d
              setParameters entry d
              if (← get).outputLines then setLineComments d
              if (← get).markInlined then markInlined d file
              setLocals entry d
              return true) t (fun made _ => made = true) fun _ _ => True := by
            have locals : ∀ (_ : PUnit) (u : Session), Runs (do setLocals entry d; return true) u
                (fun made _ => made = true) fun _ _ => True := fun _ => after _ fun _ _ => rfl
            have inlined : ∀ (_ : PUnit) (u : Session), Runs (do
                if (← get).markInlined then markInlined d file
                setLocals entry d
                return true) u (fun made _ => made = true) fun _ _ => True := by
              refine fun _ => after _ fun u => ?_
              dsimp only
              split
              · exact after _ locals
              · exact locals ⟨⟩
            refine after _ (fun _ => after _ fun _ => after _ fun _ => after _ fun u => ?_) t
            dsimp only
            split
            · exact after _ inlined
            · exact inlined ⟨⟩
          exact Runs.mono told (fun _ _ h hm => by simp [h] at hm) fun _ _ h => h

theorem isCancelled_idles (s : Session) : Runs isCancelled s
    (fun b t => t.Like s ∧ (b = true → t.monitor.isCancelled = true)) fun _ _ => False :=
  ⟨⟨rfl, rfl, rfl, .check _⟩, fun h => (Monitor.check_isCancelled s.monitor).trans h⟩

/-- What taking up one definition does. -/
theorem importNext_within (x : FunctionDefinition × SourceFile) (s : Session) :
    Runs (importNext x) s
      (fun made t => (made = none → t.monitor.isCancelled = true) ∧
        (made ≠ some true → t.Like s) ∧
        (made = some true → isComplete x.1 = true ∧ Programs (Within [x]) s t))
      fun _ t => isComplete x.1 = true ∧ Programs (Within [x]) s t := by
  rw [importNext, Runs.bind_iff]
  refine Runs.mono (isCancelled_idles s) (fun b t checked => ?_) fun _ _ h => h.elim
  obtain ⟨ht, hb⟩ := checked
  dsimp only
  split
  · next hc => exact ⟨fun _ => hb hc, fun _ => ht, by simp⟩
  · have onward {u : Session} (h : Programs (Within [x]) t u) : Programs (Within [x]) s u := by
      rwa [Programs, ht.program]
    have counted {u : Session} {made : Bool} (hidle : made = false → u.Like t)
        (hmade : made = true → isComplete x.1 = true ∧ Programs (Within [x]) t u) :
        Runs (do
          if made then count fun t => { t with functions := t.functions + 1 } else skipped
          return some made : ImportM (Option Bool)) u
          (fun made v => (made = none → v.monitor.isCancelled = true) ∧
            (made ≠ some true → v.Like s) ∧
            (made = some true → isComplete x.1 = true ∧ Programs (Within [x]) s v))
          fun _ v => isComplete x.1 = true ∧ Programs (Within [x]) s v := by
      cases made with
      | true => exact ⟨by simp, fun h => absurd rfl h, fun _ => (hmade rfl).imp_right onward⟩
      | false =>
          have skipped := (Session.Like.refl u).aside u.journal u.journal
            { u.stats with skippedFunctions := u.stats.skippedFunctions + 1 } u.stats
          exact ⟨by simp, fun _ => (skipped.trans (hidle rfl)).trans ht, by simp⟩
    split
    · next hc =>
        have work := untyped_staged.functionWork (functionEdits_within (List.mem_singleton_self x))
        have runs := (importFunction_idles x.1 x.2 t).and (untyped_staged.importFunction work t)
        rw [Runs.bind_iff]
        refine Runs.mono runs (fun made u hu => ?_) fun _ _ hu => ⟨hc, onward hu.2⟩
        exact counted hu.1 fun _ => ⟨hc, hu.2⟩
    · exact counted (fun _ => .refl t : false = false → t.Like t) fun h => absurd h Bool.false_ne_true

/-- The definitions that made or updated a function have complete ranges. -/
theorem isComplete_of_mem_pick {l : List (FunctionDefinition × SourceFile)} {s : Session}
    (h : x ∈ pick (madeFrom l s) l) : isComplete x.1 = true := by
  induction l generalizing s with
  | nil => cases h
  | cons y rest ih =>
      have hnext := importNext_within y s
      rw [madeFrom] at h
      rcases hy : importNext y s with ⟨e | made, t⟩ <;> rw [hy] at h <;> rw [Runs, hy] at hnext
      · obtain rfl := List.mem_singleton.mp h
        exact hnext.1
      · rcases made with _ | _ | _
        · cases h
        · exact ih h
        · rcases List.mem_cons.mp h with rfl | h
          · exact (hnext.2.2 rfl).1
          · exact ih h

/-- One definition after another, the program is left as it was but for those that made or updated a
function. -/
theorem importFunctionsFrom_within (l : List (FunctionDefinition × SourceFile)) (s : Session) :
    Runs (importFunctionsFrom l) s
      (fun _ t => Programs (Within (pick (madeFrom l s) l)) s t ∧
        (t.monitor.isCancelled = false → (madeFrom l s).length = l.length))
      fun _ t => Programs (Within (pick (madeFrom l s) l)) s t := by
  induction l generalizing s with
  | nil => exact ⟨Untyped.refl s.program, fun _ => rfl⟩
  | cons x rest ih =>
      have hnext := importNext_within x s
      rw [importFunctionsFrom_cons, madeFrom]
      rcases hx : importNext x s with ⟨e | made, t⟩ <;> rw [Runs, hx] at hnext
      · rw [Runs, Runs.bind_apply, hx]
        exact hnext.2
      obtain ⟨hcancelled, hidle, hmade⟩ := hnext
      have unmade {more : List (FunctionDefinition × SourceFile)} (h : made ≠ some true) :
          Programs (Within more) s t := by
        rw [Programs, ← (hidle h).program]
        exact Untyped.refl s.program
      rw [Runs, Runs.bind_apply, hx]
      rcases made with _ | _ | _
      · refine ⟨unmade (by simp), fun hc => ?_⟩
        rw [hcancelled rfl] at hc
        cases hc
      · refine Runs.mono (ih t) (fun _ u hu => ?_) fun _ u hu => ?_
        · exact ⟨Untyped.trans (unmade (by simp)) hu.1, fun hc => congrArg (· + 1) (hu.2 hc)⟩
        · exact Untyped.trans (unmade (by simp)) hu
      · have first : Programs (Within (x :: pick (madeFrom rest t) rest)) s t :=
          (hmade rfl).2.mono (List.cons_subset_cons x (List.nil_subset _))
        have later {u : Session} (h : Programs (Within (pick (madeFrom rest t) rest)) t u) :
            Programs (Within (x :: pick (madeFrom rest t) rest)) s u :=
          Untyped.trans first (Within.mono h (List.subset_cons_self x _))
        refine Runs.mono (ih t) (fun _ u hu => ?_) fun _ u hu => later hu
        exact ⟨later hu.1, fun hc => congrArg (· + 1) (hu.2 hc)⟩

theorem prepare_leaves (s : Session) :
    Runs prepare s (fun _ t => t.document = s.document ∧ t.program = s.program)
      fun _ t => t.document = s.document ∧ t.program = s.program := by
  rw [prepare, Runs.bind_iff, Runs.get_iff]
  split
  · exact ⟨rfl, rfl⟩
  · dsimp only
    split <;> exact ⟨rfl, rfl⟩

/-- The definitions of the document that make or update a function, marked in the list of all. -/
def madeFunctions (s : Session) : List Bool := madeFrom (definitions s.document) (prepare s).2

theorem importFunctions_within (s : Session) :
    Runs importFunctions s
      (fun _ t => Programs (Within (pick (madeFunctions s) (definitions s.document))) s t ∧
        (t.monitor.isCancelled = false →
          (madeFunctions s).length = (definitions s.document).length))
      fun _ t => Programs (Within (pick (madeFunctions s) (definitions s.document))) s t := by
  have prepared := prepare_leaves s
  rw [importFunctions, Runs.bind_iff, madeFunctions, Runs]
  rcases hs : prepare s with ⟨e | _, t⟩ <;> rw [Runs, hs] at prepared <;>
    obtain ⟨document, program⟩ := prepared
  · show Within _ s.program t.program
    rw [program]
    exact Untyped.refl s.program
  · have onward {made : List (FunctionDefinition × SourceFile)} {u : Session}
        (h : Programs (Within made) t u) : Programs (Within made) s u := by
      rwa [Programs, ← program]
    rw [← document]
    exact Runs.mono (importFunctionsFrom_within _ t) (fun _ _ hu => hu.imp_left onward)
      fun _ _ hu => onward hu

end Import

end StabsImport

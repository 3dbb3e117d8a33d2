import StabsImport.Proofs.Accrual
import StabsImport.Proofs.Sizes

/-!
# Types are made once and shared

An entry of the table takes its type once, and answers it from then on. There is one pointer to a
type and one array of so many elements of a type, and a structure, union, enumeration or function
type that stands in a node has one type, however often it is come by. Main statement:
`calls_memoized`, about any calls on a session that was new, with or without an import of types
before them.
-/

namespace StabsImport

open Document (Node)

/-! ## Lengths -/

namespace Arena

variable {a b : Arena} {id : TypeId}

theorem length_pos_of_mold {t : TypeObject} (h : a.get? id = some t) (hm : t.mold = .named true) :
    0 < a.length id := by
  cases t with
  | named name shape =>
      rw [length, lengthWithin, h]
      cases shape with
      | enumeration size values => simpa [TypeObject.mold, Shape.isSized] using hm
      | signature => exact Int.one_pos
      | composite c =>
          dsimp only
          split <;> omega
      | _ => cases hm
  | _ => cases hm

/-- Composites take on members, and the others stay as they are. -/
theorem keeps_of_evolves
    (evolves : ∀ {id t}, a.get? id = some t → ∃ t', b.get? id = some t' ∧ Import.Evolves t t') :
    a.Keeps b := by
  intro id t ht
  obtain ⟨t', ht', rfl | ⟨name, c, c', rfl, rfl, -⟩⟩ := evolves ht
  · exact ⟨t', ht', .same t'⟩
  · exact ⟨_, ht', .refilled name name c c'⟩

end Arena

namespace Import

variable {s t u : Session} {d : Document} {σ : Nat} {x : TypeId}

/-! ## Records -/

/-- The types of nodes are recorded for good. -/
def NodesKept (s s' : Session) : Prop :=
  ∀ {σ x}, s.cache.nodes.get? σ = some x → s'.cache.nodes.get? σ = some x

instance : Accrues NodesKept fun _ => True where
  trans h h' := fun {_ _} hc => h' (h hc)
  aside _ _ _ nodes := fun {_ _} hc => nodes ▸ hc
  program _ := fun {_ _} hc => hc
  pointer _ := fun {_ _} hc => hc
  array _ _ := fun {_ _} hc => hc
  node h _ hunset _ _ := fun {_ _} hc => by
    rw [Ledger.get?_put]
    split
    · next hsame =>
        rw [← Ledger.get?_of_same _ hsame, hunset] at hc
        cases hc
    · exact h hc

/-- What is recorded under this number, if anything, stays so. -/
def SparesNode (σ : Nat) (s s' : Session) : Prop := s'.cache.nodes.get? σ = s.cache.nodes.get? σ

instance : Accrues (SparesNode σ) (· ≠ σ) where
  trans h h' := h'.trans h
  aside _ _ _ nodes := by rw [SparesNode, nodes]
  program _ := rfl
  pointer _ := rfl
  array _ _ := rfl
  node h hne _ _ _ := by
    rw [SparesNode, Ledger.get?_put_of_not_same _ _ (decide_eq_false hne.symm)]
    exact h

/-- Of the types made since there were so many, each pointer and array is the one that is shared.
What is recorded for a node has a length. -/
structure Session.IsShared (first : Nat) (s : Session) : Prop where
  pointer : ∀ {id target size}, first ≤ id →
    s.program.arena.get? id = some (.pointer target size) →
    s.cache.pointers.get? (target, size) = some id
  array : ∀ {id element count}, first ≤ id →
    s.program.arena.get? id = some (.array element count) →
    s.cache.arrays.get? (element, count) = some id
  node : ∀ {σ id}, s.cache.nodes.get? σ = some id →
    ∃ object, s.program.arena.get? id = some object ∧ object.mold = .named true

def StaysShared (first : Nat) (s s' : Session) : Prop := s.IsShared first → s'.IsShared first

theorem Session.IsShared.retypes {first : Nat} (h : s.IsShared first) {p : Program}
    (hp : s.program.Retypes p) : Session.IsShared first { s with program := p } := by
  -- a pointer or array was there before, since only types with names of their own are new
  have before {id : TypeId} {object : TypeObject} (hg : p.arena.get? id = some object)
      (hm : ∀ isSized, object.mold ≠ .named isSized) :
      ∃ old, s.program.arena.get? id = some old ∧ object.mold = old.mold := by
    by_cases hlt : id < s.program.arena.size
    · have hold : s.program.arena.get? id = some s.program.arena.objects[id] :=
        Array.getElem?_eq_getElem hlt
      obtain ⟨object', hg', hm'⟩ := hp.kept hold
      obtain rfl : object = object' := Option.some.inj (hg.symm.trans hg')
      exact ⟨_, hold, hm'⟩
    · obtain ⟨isSized, hm'⟩ := hp.fresh hg (Nat.le_of_not_lt hlt)
      exact absurd hm' (hm isSized)
  constructor
  · intro id target size hid hg
    obtain ⟨old, hold, hm⟩ := before hg nofun
    cases old with
    | pointer =>
        cases hm
        exact h.pointer hid hold
    | _ => cases hm
  · intro id element count hid hg
    obtain ⟨old, hold, hm⟩ := before hg nofun
    cases old with
    | array =>
        cases hm
        exact h.array hid hold
    | _ => cases hm
  · intro σ id hc
    obtain ⟨old, hold, hm⟩ := h.node hc
    obtain ⟨object, hg, hm'⟩ := hp.kept hold
    exact ⟨object, hg, hm'.trans hm⟩

instance (first : Nat) : Accrues (StaysShared first) fun _ => True where
  trans h h' hs := h' (h hs)
  aside program pointers arrays nodes hs := by
    constructor
    · intro id target size hid hg
      rw [pointers]
      exact hs.pointer hid (program ▸ hg)
    · intro id element count hid hg
      rw [arrays]
      exact hs.array hid (program ▸ hg)
    · intro σ id hc
      rw [program]
      exact hs.node (nodes ▸ hc)
  program hp hs := hs.retypes hp
  pointer {s target size} hunset hs := by
    constructor
    · intro id target' size' hid hg
      rcases Arena.get?_push_cases hg with ⟨rfl, he⟩ | hg
      · cases he
        exact Ledger.get?_put_self _ _ _
      · exact Ledger.get?_put_of_free hunset (hs.pointer hid hg)
    · intro id element count hid hg
      rcases Arena.get?_push_cases hg with ⟨-, he⟩ | hg
      · cases he
      · exact hs.array hid hg
    · intro σ id hc
      obtain ⟨object, hg, hm⟩ := hs.node hc
      exact ⟨object, Arena.get?_push_of_get? _ hg, hm⟩
  array {s element count} _ hunset hs := by
    constructor
    · intro id target size hid hg
      rcases Arena.get?_push_cases hg with ⟨-, he⟩ | hg
      · cases he
      · exact hs.pointer hid hg
    · intro id element' count' hid hg
      rcases Arena.get?_push_cases hg with ⟨rfl, he⟩ | hg
      · cases he
        exact Ledger.get?_put_self _ _ _
      · exact Ledger.get?_put_of_free hunset (hs.array hid hg)
    · intro σ id hc
      obtain ⟨object, hg, hm⟩ := hs.node hc
      exact ⟨object, Arena.get?_push_of_get? _ hg, hm⟩
  node h _ _ hg hm hs := by
    refine ⟨(h hs).pointer, (h hs).array, fun hc => ?_⟩
    rw [Ledger.get?_put] at hc
    split at hc
    · cases hc
      exact ⟨_, hg, hm⟩
    · exact (h hs).node hc

/-! ## What is shared is found again -/

theorem pointerTo_records (target : TypeId) (s : Session) :
    Runs (pointerTo target) s
      (fun x t => t.cache.pointers.get? (target, s.program.pointerSize) = some x)
      fun _ _ => True := by
  rw [pointerTo, Runs.bind_iff, runs_need]
  split
  · rw [Runs.bind_iff, pointerSize, Runs.bind_iff, Runs.get_iff]
    split
    · exact trivial
    · rw [Runs.pure_iff, Runs.bind_iff, Runs.get_iff]
      split
      · next x hc => exact hc
      · exact Ledger.get?_put_self _ _ _
  · exact trivial

theorem pointerTo_of_recorded (hs : t.Sound) (hr : t.room = none) {target : TypeId}
    (h : t.cache.pointers.get? (target, t.program.pointerSize) = some x) :
    pointerTo target t = (.ok x, t) := by
  refine Runs.eq_ok ?_
  rw [pointerTo, Runs.bind_iff, runs_need, if_pos (Room.allows_of_eq_none hr 3), Runs.bind_iff,
    pointerSize, Runs.bind_iff, Runs.get_iff]
  simp only [hs.knowsPointerSize, Bool.not_true, Bool.false_eq_true, if_false, Runs.pure_iff,
    Runs.bind_iff, Runs.get_iff, h, and_self]

theorem arrayOf_records {element : TypeId} (hl : 0 < s.program.arena.length element)
    (count : Int) :
    Runs (arrayOf element count) s
      (fun x t => t.cache.arrays.get? (element, count) = some x) fun _ _ => True := by
  rw [arrayOf, Runs.bind_iff, runs_need]
  split
  · rw [Runs.bind_iff]
    refine Runs.of_eq (edit_sizedType s element ▸ if_neg (Int.not_le.mpr hl)) ?_
    rw [Runs.bind_iff, Runs.get_iff]
    split
    · next x hc => exact hc
    · rw [Runs.bind_iff]
      refine Runs.of_all (fun x t => ?_) fun _ _ => trivial
      exact Ledger.get?_put_self _ _ _
  · exact trivial

theorem arrayOf_of_recorded (hr : t.room = none) {element : TypeId}
    (hl : 0 < t.program.arena.length element) {count : Int}
    (h : t.cache.arrays.get? (element, count) = some x) :
    arrayOf element count t = (.ok x, t) := by
  refine Runs.eq_ok ?_
  rw [arrayOf, Runs.bind_iff, runs_need, if_pos (Room.allows_of_eq_none hr 3), Runs.bind_iff]
  refine Runs.of_eq (edit_sizedType t element ▸ if_neg (Int.not_le.mpr hl)) ?_
  simp only [Runs.bind_iff, Runs.get_iff, h, Runs.pure_iff, and_self]

/-- A node whose type is recorded has that type. -/
theorem createType_of_recorded (hr : t.room = none) {node : Node} (hn : node.number? = some σ)
    (h : t.cache.nodes.get? σ = some x) (enter : Int → ImportM TypeId) (hint : Json) :
    createType enter node hint t = (.ok x, t) := by
  have found (m : ImportM TypeId) : orCached σ m t = (.ok x, t) := by
    refine Runs.eq_ok ?_
    rw [runs_orCached, h]
    exact ⟨rfl, rfl⟩
  cases node with
  | enumeration c constants =>
      obtain rfl := Option.some.inj hn
      rw [createType]
      exact inside_of_unlimited hr hr 1 (found _)
  | composite c isRecord bases fields members =>
      obtain rfl := Option.some.inj hn
      rw [createType]
      exact inside_of_unlimited hr hr 1 (found _)
  | functionType f =>
      obtain rfl := Option.some.inj hn
      rw [createType_functionType]
      exact inside_of_unlimited hr hr 2 (found _)
  | _ => cases hn

/-- What is made for a node stays recorded under its number if what follows leaves that so. -/
theorem orCached_records {m : ImportM TypeId} {f : TypeId → ImportM TypeId}
    (hm : Runs m s (fun id t => Runs (f id) { t with cache.nodes := t.cache.nodes.put σ id }
      (fun x u => u.cache.nodes.get? σ = some x) fun _ _ => True) fun _ _ => True) :
    Runs (orCached σ do
      let id ← m
      cacheNode σ id
      f id) s (fun x t => t.cache.nodes.get? σ = some x) fun _ _ => True := by
  rw [runs_orCached]
  cases hc : s.cache.nodes.get? σ with
  | some id => exact rfl
  | none => exact (Runs.bind_iff _ _).mpr hm

theorem orCached_pure_records (m : ImportM TypeId) (s : Session) :
    Runs (orCached σ do
      let id ← m
      cacheNode σ id
      return id) s (fun x t => t.cache.nodes.get? σ = some x) fun _ _ => True :=
  orCached_records (Runs.of_all (fun _ _ => Ledger.get?_put_self _ _ _) fun _ _ => trivial)

theorem createType_functionType_records (enter : Int → ImportM TypeId) (f : Document.FunctionType)
    (hint : Json) (s : Session) :
    Runs (createType enter (.functionType f) hint) s
      (fun x t => t.cache.nodes.get? f.common.serial = some x) fun _ _ => True := by
  rw [createType_functionType, runs_inside]
  split
  · have hm := orCached_pure_records (σ := f.common.serial) (do
      let returns ← returnTypeOf enter f.returnType
      let parameters ← formalTypesOf enter f.parameters
      newSignature (nameOr f.common.name hint "__anon_function") returns parameters)
      { s with room := s.room.inside 2 }
    simp only [bind_assoc] at hm
    exact hm
  · exact trivial

/-- The type of a node is recorded under its number, and filling it leaves that so. -/
theorem typeOf_records {node : Node} (hn : node.number? = some σ) (hint : Json) (s : Session) :
    Runs (typeOf node hint) s (fun x t => t.cache.nodes.get? σ = some x) fun _ _ => True := by
  cases node with
  | enumeration c constants =>
      obtain rfl := Option.some.inj hn
      rw [typeOf, createType, runs_inside]
      split
      · exact orCached_pure_records _ _
      · exact trivial
  | functionType f =>
      obtain rfl := Option.some.inj hn
      exact createType_functionType_records typeAt f hint s
  | composite c isRecord bases fields members =>
      obtain rfl := Option.some.inj hn
      rw [typeOf, createType, runs_inside]
      split
      · refine orCached_records ?_
        have made : Preserves Gains
            (newShell isRecord c.sizeBits (nameOr c.name hint "__anon_struct")) :=
          .newShell _ _ _
        refine Runs.mono (made _) (fun shell t ht => ?_) fun _ _ _ => trivial
        have filling : Preserves (Over s.document NodesKept)
            (fill typeAt shell isRecord bases fields) := by
          have all : Admits NodesKept (fun _ => True) (.composite c isRecord bases fields members) :=
            .all
          exact fillNode_accrues (typeAt_accrues fun _ _ => .all) shell all
        rw [Runs.bind_iff]
        refine Runs.mono (filling _) (fun _ u hu => ?_) fun _ _ _ => trivial
        exact (hu ht.document).2 (Ledger.get?_put_self _ _ _)
      · exact trivial
  | _ => cases hn

theorem variableTypeOf_of_typeOf {node : Node} (h : typeOf node .null t = (.ok x, t))
    (hl : 0 < t.program.arena.length x) : variableTypeOf (some node) t = (.ok x, t) := by
  refine Runs.eq_ok ?_
  rw [variableTypeOf, variableType, runs_onTypeFault, Runs.bind_iff]
  refine Runs.of_eq h ?_
  exact Runs.of_eq (edit_sizedType t x ▸ if_neg (Int.not_le.mpr hl)) ⟨rfl, rfl⟩

/-! ## Over any calls -/

/-- Calls lead from the one session to the other. -/
def LeadsOn (t u : Session) : Prop :=
  ∃ calls : List Call, (∀ call ∈ calls, call.WellTyped) ∧ u = Call.makeAll t calls

/-- What is known of a session outside all resolution. -/
structure Session.Rests (first : Nat) (t : Session) : Prop where
  sound : t.Sound
  room : t.room = none
  shared : t.IsShared first

theorem Call.makeAll_accrues {X : Session → Session → Prop} [Accrues X fun _ => True] (s : Session)
    (calls : List Call) : X s (makeAll s calls) :=
  have h : Over s.document X s (makeAll s calls) :=
    makeAll_preserves accrues_staged (typeAt_accrues fun _ _ => .all) s calls
  (h rfl).2

namespace LeadsOn

variable {first : Nat}

theorem after (h : LeadsOn t u) (ht : t.Rests first) : After { cuts := True } t u := by
  obtain ⟨calls, hc, rfl⟩ := h
  exact Call.makeAll_after ht.sound ht.room hc

theorem rests (h : LeadsOn t u) (ht : t.Rests first) : u.Rests first := by
  have ha := h.after ht
  obtain ⟨calls, -, rfl⟩ := h
  have hshared : StaysShared first t (Call.makeAll t calls) := Call.makeAll_accrues t calls
  exact ⟨ha.sound, ha.room.trans ht.room, hshared ht.shared⟩

theorem nodesKept (h : LeadsOn t u) (hc : t.cache.nodes.get? σ = some x) :
    u.cache.nodes.get? σ = some x := by
  obtain ⟨calls, -, rfl⟩ := h
  exact Call.makeAll_accrues (X := NodesKept) t calls hc

end LeadsOn

/-- The node stands outside the table, and not in itself. -/
structure IsOutside (d : Document) (σ : Nat) (node : Node) : Prop where
  number : node.number? = some σ
  table : ∀ n ∈ d.types, σ ∉ n.serials
  parts : ∀ n ∈ node.parts, σ ∉ n.serials

/-- What a session that calls led to, and any that further calls lead on to, have in common. Types
that were there before the first of these calls are those below `first`. -/
structure Memoized (first : Nat) (t : Session) : Prop where
  /-- An entry keeps its type, which is what it answers. -/
  entry : ∀ {k id u}, t.typeAt? k = some id → LeadsOn t u →
    u.typeAt? k = some id ∧ typeAt k u = (.ok id, u)
  /-- No entry is left in the course of resolution: each takes the type it answers. -/
  closed : ∀ {k}, k < t.document.types.length →
    ∃ id u, typeAt k t = (.ok id, u) ∧ u.typeAt? k = some id
  /-- A pointer to a type answers the same as any other to the same type. -/
  pointer : ∀ {target : Node} {e t₁}, target.WellTyped → typeOf target .null t = (.ok e, t₁) →
    ∀ c isPointer hint, ∃ x t₂, typeOf (.pointer c isPointer target) hint t = (.ok x, t₂) ∧
      ∀ {u}, LeadsOn t₂ u → ∀ {target' : Node} {u₁}, target'.WellTyped →
        typeOf target' .null u = (.ok e, u₁) → ∀ c' isPointer' hint',
          typeOf (.pointer c' isPointer' target') hint' u = (.ok x, u₁)
  /-- So does an array of elements that have a length. -/
  array : ∀ {element : Node} {e t₁}, element.WellTyped → typeOf element .null t = (.ok e, t₁) →
    0 < t₁.program.arena.length e → ∀ {count : Int}, 0 ≤ count →
    ∀ c hint, ∃ x t₂, typeOf (.array c element count) hint t = (.ok x, t₂) ∧
      ∀ {u}, LeadsOn t₂ u → ∀ {element' : Node} {u₁}, element'.WellTyped →
        typeOf element' .null u = (.ok e, u₁) → ∀ c' hint',
          typeOf (.array c' element' count) hint' u = (.ok x, u₁)
  /-- Wherever they were made, there is one pointer to a type and one array of a count of
  elements. -/
  pointers : ∀ {x y target size}, first ≤ x → first ≤ y →
    t.program.arena.get? x = some (.pointer target size) →
    t.program.arena.get? y = some (.pointer target size) → x = y
  arrays : ∀ {x y element count}, first ≤ x → first ≤ y →
    t.program.arena.get? x = some (.array element count) →
    t.program.arena.get? y = some (.array element count) → x = y
  /-- What a node answers it answers from then on, as such and as the type of a variable. -/
  node : ∀ {σ} {node : Node} {hint x t₁}, node.number? = some σ → node.WellTyped → hint.IsName →
    typeOf node hint t = (.ok x, t₁) → t₁.cache.nodes.get? σ = some x ∧
      ∀ {u}, LeadsOn t₁ u → (∀ hint', typeOf node hint' u = (.ok x, u)) ∧
        variableTypeOf (some node) u = (.ok x, u)
  /-- So it does if its type was recorded in whatever else was resolved. -/
  recorded : ∀ {σ x u}, t.cache.nodes.get? σ = some x → LeadsOn t u →
    ∀ {node : Node}, node.number? = some σ →
      (∀ hint, typeOf node hint u = (.ok x, u)) ∧ variableTypeOf (some node) u = (.ok x, u)
  /-- Its type is not recorded while its parts are resolved, if it stands outside the table. -/
  parts : ∀ {σ} {node part : Node}, IsOutside t.document σ node → part ∈ node.parts →
    ∀ hint, (typeOf part hint t).2.cache.nodes.get? σ = t.cache.nodes.get? σ

namespace Session.Rests

variable {first : Nat}

theorem allows (ht : t.Rests first) (calls : Nat) : t.room.allows calls = true :=
  Room.allows_of_eq_none ht.room calls

theorem onward {L : Scope} (ht : t.Rests first) (ha : After L t u)
    (hx : Over t.document (StaysShared first) t u) : u.Rests first :=
  ⟨ha.sound, ha.room.trans ht.room, (hx rfl).2 ht.shared⟩

/-- Resolving a node leads to such a session, with a type that is there. -/
theorem typeOf (ht : t.Rests first) {node : Node} (hn : node.WellTyped) {hint : Json}
    (hh : hint.IsName) (h : Import.typeOf node hint t = (.ok x, u)) :
    After { cuts := True } t u ∧ u.Rests first ∧ x < u.program.arena.size := by
  have hy := typeOf_yields (settles_of_cuts t.document fun _ => False) hn ht.sound.ready hh
    (ht.allows _)
  rw [Yields, Runs, h] at hy
  have hx : Over t.document (StaysShared first) t (Import.typeOf node hint t).2 :=
    (typeOf_accrues (fun _ _ => .all) .all hint).apply t
  rw [h] at hx
  exact ⟨hy.1, ht.onward hy.1 hx, hy.2⟩

theorem entry (ht : t.Rests first) {k : Nat} (hk : t.typeAt? k = some x) (hu : LeadsOn t u) :
    u.typeAt? k = some x ∧ typeAt k u = (.ok x, u) := by
  have hk' : u.typeAt? k = some x := ((hu.after ht).entry hk).resolve_right fun h => h.1
  exact ⟨hk', typeAtWithin_of_entry (hu.rests ht).sound (hu.rests ht).room hk' _ _⟩

theorem typeOf_pointer (ht : t.Rests first) {target : Node} {e : TypeId} {t₁ t₂ : Session}
    (h : Import.typeOf target .null t = (.ok e, t₁)) (h' : pointerTo e t₁ = (.ok x, t₂))
    (ht₂ : t₂.room = none) (c : Document.Common) (isPointer : Bool) (hint : Json) :
    Import.typeOf (.pointer c isPointer target) hint t = (.ok x, t₂) := by
  rw [Import.typeOf, createType]
  refine inside_of_unlimited ht.room ht₂ 1 ?_
  rw [Runs.bind_apply, ← Import.typeOf, h]
  exact h'

theorem pointer (ht : t.Rests first) {target : Node} {e : TypeId} {t₁ : Session}
    (hn : target.WellTyped) (h : Import.typeOf target .null t = (.ok e, t₁)) (c : Document.Common)
    (isPointer : Bool) (hint : Json) :
    ∃ x t₂, Import.typeOf (.pointer c isPointer target) hint t = (.ok x, t₂) ∧
      ∀ {u}, LeadsOn t₂ u → ∀ {target' : Node} {u₁}, target'.WellTyped →
        Import.typeOf target' .null u = (.ok e, u₁) → ∀ c' isPointer' hint',
          Import.typeOf (.pointer c' isPointer' target') hint' u = (.ok x, u₁) := by
  obtain ⟨-, ht₁, he⟩ := ht.typeOf hn (.inl rfl) h
  have made : Yields { cuts := True } (pointerTo e) t₁ _ NoFault :=
    ht₁.sound.pointerTo (ht₁.allows 3) he
  obtain ⟨x, t₂, hx, ha, -⟩ := made.exists_ok
  have hrec := pointerTo_records e t₁
  have hover : Over t₁.document (StaysShared first) t₁ (pointerTo e t₁).2 :=
    (pointerTo_accrues e).apply t₁
  rw [Runs, hx] at hrec
  rw [hx] at hover
  have ht₂ := ht₁.onward ha hover
  refine ⟨x, t₂, ht.typeOf_pointer h hx ht₂.room c isPointer hint, ?_⟩
  intro u hu target' u₁ hn' h' c' isPointer' hint'
  have hau := hu.after ht₂
  obtain ⟨hau₁, hu₁, -⟩ := (hu.rests ht₂).typeOf hn' (.inl rfl) h'
  have hsize : u₁.program.pointerSize = t₁.program.pointerSize :=
    hau₁.pointerSize.trans (hau.pointerSize.trans ha.pointerSize)
  refine (hu.rests ht₂).typeOf_pointer h' ?_ hu₁.room c' isPointer' hint'
  exact pointerTo_of_recorded hu₁.sound hu₁.room
    (hsize ▸ hau₁.pointers (hau.pointers hrec))

theorem typeOf_array (ht : t.Rests first) {element : Node} {e : TypeId} {t₁ t₂ : Session}
    {count : Int} (h : Import.typeOf element .null t = (.ok e, t₁))
    (h' : arrayOf e count t₁ = (.ok x, t₂)) (ht₂ : t₂.room = none) (c : Document.Common)
    (hint : Json) : Import.typeOf (.array c element count) hint t = (.ok x, t₂) := by
  rw [Import.typeOf, createType]
  refine inside_of_unlimited ht.room ht₂ 1 ?_
  rw [Runs.bind_apply, ← Import.typeOf, h]
  exact h'

theorem array (ht : t.Rests first) {element : Node} {e : TypeId} {t₁ : Session}
    (hn : element.WellTyped) (h : Import.typeOf element .null t = (.ok e, t₁))
    (hl : 0 < t₁.program.arena.length e) {count : Int} (hcount : 0 ≤ count) (c : Document.Common)
    (hint : Json) :
    ∃ x t₂, Import.typeOf (.array c element count) hint t = (.ok x, t₂) ∧
      ∀ {u}, LeadsOn t₂ u → ∀ {element' : Node} {u₁}, element'.WellTyped →
        Import.typeOf element' .null u = (.ok e, u₁) → ∀ c' hint',
          Import.typeOf (.array c' element' count) hint' u = (.ok x, u₁) := by
  obtain ⟨-, ht₁, -⟩ := ht.typeOf hn (.inl rfl) h
  have made : Yields { cuts := True } (arrayOf e count) t₁ _ _ :=
    ht₁.sound.arrayOf (ht₁.allows 3) e count
  rcases made.exists_result with ⟨x, t₂, hx, ha, -⟩ | ⟨_, _, _, _, _, hneg⟩
  · have hrec := arrayOf_records hl count
    have hover : Over t₁.document (StaysShared first) t₁ (arrayOf e count t₁).2 :=
      (arrayOf_accrues e count).apply t₁
    rw [Runs, hx] at hrec
    rw [hx] at hover
    have ht₂ := ht₁.onward ha hover
    refine ⟨x, t₂, ht.typeOf_array h hx ht₂.room c hint, ?_⟩
    intro u hu element' u₁ hn' h' c' hint'
    have hau := hu.after ht₂
    obtain ⟨hau₁, hu₁, -⟩ := (hu.rests ht₂).typeOf hn' (.inl rfl) h'
    -- the element still has a length, though it may have taken on members
    have kept := Arena.keeps_of_evolves (ha.trans (hau.trans hau₁)).evolves
    refine (hu.rests ht₂).typeOf_array h' ?_ hu₁.room c' hint'
    exact arrayOf_of_recorded hu₁.room (kept.length_pos hl) (hau₁.arrays (hau.arrays hrec))
  · exact absurd hcount (Int.not_le.mpr hneg)

theorem recorded (ht : t.Rests first) (hc : t.cache.nodes.get? σ = some x) (hu : LeadsOn t u)
    {node : Node} (hn : node.number? = some σ) :
    (∀ hint, Import.typeOf node hint u = (.ok x, u)) ∧
      variableTypeOf (some node) u = (.ok x, u) := by
  have hcu := hu.nodesKept hc
  have answers (hint : Json) : Import.typeOf node hint u = (.ok x, u) :=
    createType_of_recorded (hu.rests ht).room hn hcu _ hint
  obtain ⟨object, hg, hm⟩ := (hu.rests ht).shared.node hcu
  exact ⟨answers, variableTypeOf_of_typeOf (answers .null) (Arena.length_pos_of_mold hg hm)⟩

theorem memoized (ht : t.Rests first) : Memoized first t where
  entry := ht.entry
  closed hk :=
    have ⟨id, u, h, _, hset⟩ := (typeAt_answers (settles_of_cuts t.document fun _ => False)
      ht.sound.ready hk (ht.allows _)).exists_ok
    ⟨id, u, h, hset⟩
  pointer := ht.pointer
  array := ht.array
  pointers hx hy hgx hgy :=
    Option.some.inj ((ht.shared.pointer hx hgx).symm.trans (ht.shared.pointer hy hgy))
  arrays hx hy hgx hgy :=
    Option.some.inj ((ht.shared.array hx hgx).symm.trans (ht.shared.array hy hgy))
  node {σ node hint x t₁} hn hw hh h := by
    have hrec := typeOf_records hn hint t
    rw [Runs, h] at hrec
    obtain ⟨-, ht₁, -⟩ := ht.typeOf hw hh h
    exact ⟨hrec, fun hu => ht₁.recorded hrec hu hn⟩
  recorded := ht.recorded
  parts {σ node part} ho hp hint := by
    have spared : Over t.document (SparesNode σ) t (Import.typeOf part hint t).2 :=
      (typeOf_accrues
        (fun n hn => .of_serials fun τ hτ => ne_of_mem_of_not_mem hτ (ho.table n hn))
        (.of_serials fun τ hτ => ne_of_mem_of_not_mem hτ (ho.parts part hp)) hint).apply t
    exact (spared rfl).2

end Session.Rests

theorem Session.IsNew.rests (h : s.IsNew) : s.Rests s.program.arena.size where
  sound := h.sound
  room := h.room
  shared := by
    constructor
    · intro id target size hid hg
      exact absurd (Arena.lt_size_of_get? hg) (Nat.not_lt_of_le hid)
    · intro id element count hid hg
      exact absurd (Arena.lt_size_of_get? hg) (Nat.not_lt_of_le hid)
    · intro σ id hc
      rw [h.cache] at hc
      cases hc

/-- Types are made once and shared over any calls on a session that was new, whether or not the
types of the document were imported before, and whether or not that was cancelled. -/
theorem calls_memoized (h : s.IsNew) (hstart : t = s ∨ t = (importTypes s).2) {calls : List Call}
    (hc : ∀ call ∈ calls, call.WellTyped) :
    Memoized s.program.arena.size (Call.makeAll t calls) := by
  have ht : t.Rests s.program.arena.size := by
    rcases hstart with rfl | rfl
    · exact h.rests
    · obtain ⟨hs, hr⟩ := (Reached.types (.new h)).sound
      have hshared : Over s.document (StaysShared s.program.arena.size) s (importTypes s).2 :=
        (importTypes_accrues fun _ _ => .all).apply s
      exact ⟨hs, hr, (hshared rfl).2 h.rests.shared⟩
  exact (LeadsOn.rests ⟨calls, hc, rfl⟩ ht).memoized

theorem calls_memoized_mutual :
    Memoized 0 (Call.makeAll (importTypes mutualSession).2 mutualCalls) :=
  calls_memoized mutualSession_isNew (.inr rfl) mutualCalls_wellTyped

end Import

end StabsImport

import StabsImport.Proofs.Convergence
import StabsImport.Proofs.Finding

/-!
# What sessions that mirror each other show

Asked for the same types in turn, sessions that mirror each other go on to do so, and a node looks the
same in both. Where the second began with all that the first left, it has what the first left at the
end, and sums up the registered types in the same way. Main statements: `Answered.mirrors`,
`Returns.recalls`, `Returns.typesJson`.
-/

namespace StabsImport.Import

open Document (FunctionDefinition SourceFile Variable Node)

open Program Bond

variable {d : Document} {σ : Renumbering} {s s' t t' u : Session} {l : List (ImportM TypeId)}
  {x y : TypeId}

/-! ## Types asked for in turn -/

theorem Mirrors.grounded {σ : Renumbering} (h : Mirrors σ s s') (hs : SameGrounds s t)
    (hs' : SameGrounds s' t') : (bond σ).Onward s s' t t' := by
  have entry {s t : Session} (h : SameGrounds s t) (k : Nat) : t.typeAt? k = s.typeAt? k := by
    rw [Session.typeAt?, Session.typeAt?, h.table]
  refine Mirrors.onward ?_ hs.arena
  constructor
  case arenas => rw [hs.arena, hs'.arena]; exact h.arenas
  case typed => rw [hs.document]; exact h.typed
  case document => rw [hs'.document, hs.document, h.document]
  case room => rw [hs.room, h.room]
  case room' => rw [hs'.room, h.room']
  case knows => rw [hs.knows, h.knows]
  case knows' => rw [hs'.knows, h.knows']
  case pointerSize => rw [hs'.pointerSize, hs.pointerSize, h.pointerSize]
  case listed =>
    refine ⟨hs.prepared.trans h.listed.1, fun k hk => ?_⟩
    rw [entry hs]
    exact h.listed.2 k (hs.document ▸ hk)
  case prepared => rw [hs'.prepared, h.prepared]
  case tables => rw [hs'.table, hs.table, h.tables]
  case entries => intro k; rw [entry hs, entry hs', hs.arena]; exact h.entries k
  case builtIns => rw [hs.cache, hs'.cache, hs.arena]; exact h.builtIns
  case pointers => rw [hs.cache, hs'.cache, hs.arena]; exact h.pointers
  case arrays => rw [hs.cache, hs'.cache, hs.arena]; exact h.arrays
  case nodes => rw [hs.cache, hs'.cache, hs.arena]; exact h.nodes

/-- Asked for the same types, sessions that mirror each other go on to do so. -/
theorem Answered.mirrors (makes : ∀ m ∈ l, (bond σ).Makes m) (h : Answered l s t)
    (h' : Answered l s' t') (hm : Mirrors σ s s') : (bond σ).Onward s s' t t' := by
  induction h generalizing s' with
  | done same =>
      cases h' with
      | done same' => exact hm.grounded same same'
  | @ask m l s t u same later ih =>
      cases h' with
      | @ask _ _ _ v' _ same' later' =>
          have grounded := hm.grounded same same'
          have asked := makes m List.mem_cons_self t v' grounded.related
          have onward : (bond σ).Onward t v' (m t).2 (m v').2 := by
            revert asked
            generalize m t = r, m v' = r'
            rintro (⟨onward, -⟩ | onward)
            · exact onward
            · exact onward
          exact (grounded.trans onward).trans
            (ih (fun m hm => makes m (List.mem_cons_of_mem _ hm)) later' onward.related)

theorem makes_askOf {v : Variable} (typed : v.type.WellTyped) : (bond σ).Makes (askOf v) :=
  Mirrors.concord.makes_inside 1 (Mirrors.concord.variableTypeOf fun _ => typed)

theorem makes_parameterType {v : Variable} (typed : v.type.WellTyped) :
    (bond σ).Makes (parameterType v) := fun s s' =>
  (Mirrors.concord.makes_inside 3 (Mirrors.concord.variableTypeOf fun _ => typed) s s').bind
    fun x y t t' _ hxy => by
      split
      · exact Mirrors.pointerTo hxy
      · exact .pure hxy

theorem makes_asksOf {x : FunctionDefinition} (hx : IsDefinition d x) :
    ∀ m ∈ asksOf x, (bond σ).Makes m := by
  intro m hm
  simp only [asksOf, List.mem_append, List.mem_map, Option.mem_toList] at hm
  rcases hm with (⟨n, hn, rfl⟩ | ⟨v, hv, rfl⟩) | ⟨e, he, rfl⟩
  · have hpart : n ∈ (Node.functionType x.type).parts :=
      List.mem_append_left _ (by simp [hn])
    exact Mirrors.concord.makes_inside 1
      (Mirrors.concord.typeOf (fun _ => hx.typed.type.part hpart) fun _ => .inl rfl)
  · exact makes_parameterType (hx.parameters v hv).2.1
  · exact Mirrors.concord.makes_inside 3
      (Mirrors.concord.variableTypeOf fun _ => (hx.stackLocals e he).1)

/-! ## What is seen in both -/

namespace Mirrors

theorem look_eq (h : Mirrors σ s s') (hxy : σ.Pairs s.program.arena x y) :
    s'.look y = s.look x := by
  show Look.mk _ _ = Look.mk _ _
  rw [← h.arenas.name_eq hxy, ← h.arenas.length_eq hxy]

theorem map_look (h : Mirrors σ s s') {o o' : Option TypeId}
    (same : Option.Rel (σ.Pairs s.program.arena) o o') : o'.map s'.look = o.map s.look := by
  cases same with
  | none => rfl
  | some hxy => exact congrArg some (h.look_eq hxy)

theorem referenceLook (h : Mirrors σ s s') (r : Document.TypeReference) :
    s'.referenceLook r = s.referenceLook r := by
  have entry : s'.entryLook = s.entryLook := by
    funext index
    rw [Session.entryLook, Session.entryLook, h.document, h.map_look (h.entries _)]
  rw [Session.referenceLook, Session.referenceLook, h.document, entry]

/-- Every node looks the same in both. -/
theorem outlook (h : Mirrors σ s s') (node : Node) : s'.outlook node = s.outlook node := by
  induction hn : node.height using Nat.strongRecOn generalizing node with
  | ind height ih =>
  subst hn
  have part {m : Node} (hm : m ∈ node.parts) : s'.outlook m = s.outlook m :=
    ih m.height (Node.height_lt_of_mem_parts hm) m rfl
  cases node with
  | typeName c r => exact h.referenceLook r
  | builtIn c b => rfl
  | pointer c p target =>
      rw [Session.outlook, Session.outlook, part (List.mem_singleton_self target), h.pointerSize]
  | array c element count =>
      rw [Session.outlook, Session.outlook, part (List.mem_singleton_self element)]
  | bitField c o underlying =>
      rw [Session.outlook, Session.outlook, part (List.mem_singleton_self underlying)]
  | memberPointer c k m => rw [Session.outlook, Session.outlook, h.pointerSize]
  | enumeration | composite | functionType =>
      rw [Session.outlook_of_number rfl, Session.outlook_of_number rfl, h.map_look (h.nodes _)]
  | variable_ | functionDefinition | sourceFile => rfl

end Mirrors

theorem Session.alike_congr (h : s.look x = s.look y) : s.alike x = s.alike y := by
  rw [Session.alike, Session.alike, h]

/-! ## What the second leaves of the first -/

/-- After a stage of types and more work, which left `b`, there was another stage of types over the
same document, on the program as it was then, and more work, which left `v`; the two mirror each
other. -/
structure Returns (s shells filled b s' shells' filled' v : Session) : Prop where
  first : TypeStage s shells filled
  second : TypeStage s' shells' filled'
  initial : RegistersInitial shells
  same : shells.program.SameSizes filled.program
  document : s'.document = b.document
  program : s'.program = b.program
  permanent : Permanent filled b
  upholds : Upholds filled b
  sound : b.Sound
  permanent' : Permanent filled' v
  upholds' : Upholds filled' v
  sound' : v.Sound
  mirrors : Mirrors (renumbering shells shells') b v

/-- What is permanent is found again by a stage that begins there. -/
theorem Permanent.revisits {filled b : Session} (h : Permanent filled b) (up : Upholds filled b)
    (document : s'.document = b.document) (program : s'.program = b.program) :
    Revisits filled s' where
  document := document.trans up.document
  pointerSize := program ▸ up.pointerSize
  registry := program ▸ h.registry
  kept hx := by
    rw [program]
    exact (h.types hx).1

namespace Returns

variable {shells filled b shells' filled' v : Session}
  (h : Returns s shells filled b s' shells' filled' v)

include h

theorem revisits : Revisits filled s' := h.permanent.revisits h.upholds h.document h.program

theorem kept {x : TypeId} (hx : x < b.program.arena.size) :
    shells'.program.arena.get? x = b.program.arena.get? x := by
  rw [← h.program] at hx ⊢
  exact (h.first.finds h.second h.revisits h.same).kept hx

theorem size_le : b.program.arena.size ≤ shells'.program.arena.size :=
  TypeStage.size_le_of_kept h.kept

/-- What was registered is an enumeration or a composite still. -/
theorem registered {own : Json} (hx : shells.program.registry.get? own = some x) :
    x < shells.program.arena.size ∧ x < b.program.arena.size ∧ ∃ own' shape,
      shells.program.arena.get? x = some (.named own' shape) ∧ shape.IsInitial := by
  have hlt := h.first.registered.sound.program.lt_size hx
  obtain ⟨own', shape, hget, initial⟩ := h.initial own x hx
  refine ⟨hlt, ?_, own', shape, hget, initial⟩
  exact Nat.lt_of_lt_of_le (h.first.after.lt_size hlt) h.upholds.size_le

theorem resembling : b.program.arena.IsResembling v.program.arena fun x y =>
    x = y ∧ x < b.program.arena.size := by
  rintro x _ ⟨rfl, hx⟩
  by_cases live : ∃ own, shells.program.registry.get? own = some x
  · obtain ⟨own, hown⟩ := live
    obtain ⟨hlt, -, own', shape, hget, initial⟩ := h.registered hown
    have pairs : (renumbering shells shells').Pairs b.program.arena x x :=
      ⟨hx, fun _ => ⟨own, hown⟩, (Renumbering.apply_of_lt hlt).symm⟩
    obtain ⟨t, u, ht, hu, resembles⟩ := h.mirrors.arenas.types x x pairs
    refine ⟨t, u, ht, hu, ?_⟩
    obtain ⟨t', ht', evolved⟩ := h.first.after.evolves hget
    have same := (h.permanent.types (Arena.lt_size_of_get? ht')).1
    obtain rfl : t = t' := Option.some.inj (ht.symm.trans (same.trans ht'))
    rcases evolved with rfl | ⟨_, c, c', heq, rfl, -⟩
    · cases resembles with
      | leaf links plain => exact .leaf links plain
      | composite kind size => exact .composite kind size
      | signature => exact initial.elim
    · cases resembles with
      | leaf _ plain => cases plain
      | composite kind size => exact .composite kind size
  · have dead : v.program.arena.get? x = shells'.program.arena.get? x :=
      h.mirrors.arenas.kept (Nat.lt_of_lt_of_le hx h.size_le) fun _ => live
    have hget : b.program.arena.get? x = some b.program.arena.objects[x] :=
      Array.getElem?_eq_getElem hx
    refine ⟨_, _, hget, (dead.trans (h.kept hx)).trans hget, ?_⟩
    exact (TypeObject.Matches.self fun y hy => ⟨rfl, h.sound.program.arena.leads_lt hget hy⟩).resembles

/-- What the first leaves looks in the second as it did. -/
theorem recalls : Recalls b v where
  pointerSize := h.mirrors.pointerSize
  convention := by
    have stage : Frame (fun _ => True) s' (importTypes s').2 :=
      (importTypes_frame fun _ => trivial).apply s'
    rw [h.second.stage] at stage
    rw [h.upholds'.convention, stage.convention, h.program]
  size_le := h.size_le.trans (h.mirrors.arenas.second_le)
  look hx := by
    show Look.mk _ _ = Look.mk _ _
    rw [← h.resembling.name_eq h.sound.program.arena h.sound'.program.arena h.sound.naming
        h.sound'.naming ⟨rfl, hx⟩,
      ← h.resembling.length_eq h.sound.program.arena h.sound'.program.arena ⟨rfl, hx⟩]
  outlook hl := (h.mirrors.outlook _).trans hl

theorem registry : v.program.registry = b.program.registry := by
  rw [h.permanent'.registry, h.second.registry,
    (h.first.finds h.second h.revisits h.same).registry, h.program]

/-- The members that a registered composite had are put there again, of types that look alike. -/
theorem composite_alike {own : Json} (hx : shells.program.registry.get? own = some x)
    {c₀ : Composite} (hc₀ : shells.program.arena.composite? x = some c₀) : ∃ c c',
      b.program.arena.composite? x = some c ∧ v.program.arena.composite? x = some c' ∧
        c'.retyped v.alike = c.retyped v.alike := by
  obtain ⟨hlt, hlt', own', shape, hget, initial⟩ := h.registered hx
  obtain ⟨c', ms, hc', proper, hb, hv⟩ := h.mirrors.arenas.filled hlt ⟨own, hx⟩ hc₀
  have bare : c₀.components = [] := by
    obtain ⟨_, hc₀⟩ := Arena.composite?_eq_some.mp hc₀
    obtain ⟨-, rfl⟩ := TypeObject.named.inj (Option.some.inj (hget.symm.trans hc₀))
    exact initial
  obtain rfl : c' = c₀.putAll ms := by
    have same : shells'.program.arena.composite? x = b.program.arena.composite? x := by
      rw [Arena.composite?, Arena.composite?, h.kept hlt']
    exact Option.some.inj (hc'.symm.trans (same.trans hb))
  refine ⟨_, _, hb, hv, ?_⟩
  -- a member and the one put there again look alike
  have alike : (ms.map (·.retyped (renumbering shells shells').apply)).map (·.retyped v.alike) =
      ms.map (·.retyped v.alike) := by
    rw [List.map_map]
    refine List.map_congr_left fun m hm => ?_
    have pairs := (proper m hm).2
    have look := (h.mirrors.look_eq pairs).trans (h.recalls.look pairs.lt_size).symm
    exact congrArg (fun type => { m with type }) (Session.alike_congr look)
  rw [Composite.putAll_retyped, alike, Composite.putAll_retyped]
  refine Composite.putAll_again ?_ fun m hm => ?_
  · show c₀.components.map _ = []
    rw [bare]
    rfl
  · obtain ⟨n, hn, rfl⟩ := List.mem_map.mp hm
    exact ⟨(proper n hn).1.long, (proper n hn).1.named⟩

/-- Members of types that look alike are summed up in the same way. -/
theorem componentsJson {c c' : Composite} (placed : ∀ m ∈ c.components, m.type < b.program.arena.size)
    (alike : c'.retyped v.alike = c.retyped v.alike) :
    c'.components.mapM v.program.arena.componentJson =
      c.components.mapM b.program.arena.componentJson := by
  have told {a : Arena} {ms : List Component}
      (names : ∀ m ∈ ms, v.program.arena.name m.type = a.name m.type) :
      (ms.map (·.retyped v.alike)).mapM v.program.arena.componentJson = ms.mapM a.componentJson := by
    rw [List.mapM_map]
    refine mapM_congr_left fun m hm => ?_
    rw [Function.comp, Arena.componentJson, Arena.componentJson, Component.retyped, v.name_alike,
      names m hm]
    rfl
  calc
    _ = (c'.retyped v.alike).components.mapM v.program.arena.componentJson :=
      (told fun _ _ => rfl).symm
    _ = (c.retyped v.alike).components.mapM v.program.arena.componentJson := by rw [alike]
    _ = _ := told fun m hm => congrArg Look.name (h.recalls.look (placed m hm))

/-- Registered types are summed up as the first left them. -/
theorem toJson {own : Json} (hx : shells.program.registry.get? own = some x)
    (keyText : Json → String) :
    v.program.arena.toJson keyText x = b.program.arena.toJson keyText x := by
  obtain ⟨hlt, hlt', own', shape, hget, initial⟩ := h.registered hx
  obtain ⟨t, u, ht, hu, resembles⟩ := h.resembling x x ⟨rfl, hlt'⟩
  have look := h.recalls.look hlt'
  have name : v.program.arena.name x = b.program.arena.name x := congrArg Look.name look
  have length : v.program.arena.length x = b.program.arena.length x := congrArg Look.length look
  have content : v.program.arena.contentJson keyText u = b.program.arena.contentJson keyText t := by
    cases resembles with
    | @leaf t links plain =>
        cases t with
        | named own shape =>
            cases shape with
            | composite => cases plain
            | _ => rfl
        | _ => rfl
    | @composite own c c' =>
        obtain ⟨c₀, hc₀⟩ : ∃ c₀, shells.program.arena.composite? x = some c₀ := by
          obtain ⟨t', ht', rfl | ⟨_, c₀, _, heq, -⟩⟩ := h.first.after.evolves hget
          · have same := (h.permanent.types (Arena.lt_size_of_get? ht')).1.trans ht'
            obtain ⟨-, rfl⟩ := TypeObject.named.inj (Option.some.inj (ht.symm.trans same))
            exact ⟨c, Arena.composite?_eq_some.mpr ⟨_, hget⟩⟩
          · exact ⟨c₀, Arena.composite?_eq_some.mpr ⟨_, heq ▸ hget⟩⟩
        obtain ⟨_, _, hc, hc', alike⟩ := h.composite_alike hx hc₀
        obtain rfl := Option.some.inj ((Arena.composite?_eq_some.mpr ⟨_, ht⟩).symm.trans hc)
        obtain rfl := Option.some.inj ((Arena.composite?_eq_some.mpr ⟨_, hu⟩).symm.trans hc')
        have placed := h.sound.program.arena.placed ht
        simp only [Arena.contentJson, h.componentsJson placed alike]
    | _ => rfl
  simp only [Arena.toJson, ht, hu, Option.getD_some, resembles.kind, name, length, content]

/-- The registered types are summed up as the first left them. -/
theorem typesJson (distinct : b.program.registry.Distinct) (keyText : Json → String) :
    v.program.typesJson keyText = b.program.typesJson keyText := by
  have text := h.sound.text distinct
  have same : ∀ e ∈ b.program.registry.sorted leText,
      v.program.arena.toJson keyText e.2 = b.program.arena.toJson keyText e.2 := fun e he => by
    have held := distinct.get?_of_mem (List.mem_mergeSort.mp he)
    rw [h.permanent.registry, h.first.registry] at held
    exact h.toJson held keyText
  rw [typesJson_of_text text, typesJson_of_text (h.registry ▸ text), h.registry,
    mapM_congr_left same]

end Returns

end StabsImport.Import

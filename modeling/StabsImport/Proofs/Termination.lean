import StabsImport.Proofs.Stages

/-!
# Resolution ends

From every session that earlier work leads to, every way of making types ends with its result, and
within a number of calls that depends on how many entries the table has and how far nodes stand
inside one another: an entry in the course of resolution is not opened again.
-/

namespace StabsImport

/-- The program was worked on by others: they may add types and members, and take none back. -/
structure Program.GrowsTo (p q : Program) : Prop where
  sound : q.Sound
  room : q.arena.room = p.arena.room
  evolves : ∀ {id t}, p.arena.get? id = some t → ∃ t', q.arena.get? id = some t' ∧ Import.Evolves t t'
  registry : ∀ {name id}, p.registry.get? name = some id → q.registry.get? name = some id

namespace Import

open Document (Node Base)

/-- A session about to begin over a document, on any program. -/
structure Session.IsNew (s : Session) : Prop where
  document : s.document.WellTyped
  program : s.program.Sound
  naming : s.program.arena.room = none
  knowsPointerSize : s.knowsPointerSize = true
  table : s.table = #[]
  isPrepared : s.isPrepared = false
  cache : s.cache = {}
  room : s.room = none

/-- The sessions that work in any order leads to, where calls are not limited. -/
inductive Reached : Session → Prop where
  | new {s : Session} (h : s.IsNew) : Reached s
  | types {s : Session} (h : Reached s) : Reached (importTypes s).2
  | functions {s : Session} (h : Reached s) : Reached (importFunctions s).2
  | globals {s : Session} (h : Reached s) : Reached (importGlobals s).2
  | entry {s : Session} (h : Reached s) (index : Int) : Reached (typeAt index s).2
  | node {s : Session} (h : Reached s) {n : Node} (hn : n.WellTyped) {hint : Json}
      (hh : hint.IsName) : Reached (typeOf n hint s).2
  | variable_ {s : Session} (h : Reached s) {n : Node} (hn : n.WellTyped) :
      Reached (variableTypeOf (some n) s).2
  | fill {s : Session} (h : Reached s) {shell : TypeId} {c : Document.Common} {isRecord : Bool}
      {bases : List Base} {fields members : List Node}
      (hn : (Node.composite c isRecord bases fields members).WellTyped)
      (hs : s.IsComposite shell (kindOf isRecord)) :
      Reached (fill typeAt shell isRecord bases fields s).2
  | monitor {s : Session} (h : Reached s) (m : Monitor) : Reached { s with monitor := m }
  | program {s : Session} (h : Reached s) {p : Program} (hp : s.program.GrowsTo p) :
      Reached { s with program := p }

variable {s : Session}

theorem Session.IsNew.sound (h : s.IsNew) : s.Sound := by
  have unset : s.IsFresh := Session.isFresh_of_table h.table
  constructor
  · exact h.document
  · exact h.knowsPointerSize
  · exact h.naming
  · exact h.program
  · intro hp
    rw [h.isPrepared] at hp
    cases hp
  · exact fun _ => h.table
  · intro k id he
    rw [unset] at he
    cases he
  · intro k id node he
    rw [unset] at he
    cases he
  all_goals
    rw [h.cache]
    intros
    next he => cases he

theorem Session.Sound.grow (h : s.Sound) {p : Program} (hp : s.program.GrowsTo p) :
    Session.Sound { s with program := p } := by
  refine h.withProgram hp.sound hp.room ?_ ?_ ?_ hp.registry
  · intro id t hg ht
    obtain ⟨t', hg', rfl | ⟨_, _, _, rfl, rfl, _⟩⟩ := hp.evolves hg
    · exact hg'
    · cases ht _ _ rfl
  · intro id name shape hg _
    obtain ⟨t', hg', rfl | ⟨_, c, c', heq, rfl, hk, _⟩⟩ := hp.evolves hg
    · exact ⟨shape, hg', fun _ hf => hf⟩
    · cases heq
      refine ⟨_, hg', fun n hf => ?_⟩
      cases n with
      | composite => exact hk.trans hf
      | _ => exact hf
  · refine Nat.le_of_not_lt fun hlt => ?_
    obtain ⟨_, hg, _⟩ := hp.evolves (Array.getElem?_eq_getElem hlt)
    exact Nat.lt_irrefl _ (Arena.lt_size_of_get? hg)

/-- A session that an action leads to, whatever it ends with. -/
theorem Yields.after {α : Type} {L : Scope} {m : ImportM α} {ok : α → Session → Prop}
    {bad : Fault → Session → Prop} (h : Yields L m s ok bad) : After L s (m s).2 := by
  rw [Yields, Runs] at h
  rcases hm : m s with ⟨_ | _, t⟩
  · rw [hm] at h
    exact h.1
  · rw [hm] at h
    exact h.1

/-- Sessions that are sound and in which calls are not limited. -/
theorem Yields.unlimited {α : Type} {L : Scope} {m : ImportM α} {ok : α → Session → Prop}
    {bad : Fault → Session → Prop} (h : Yields L m s ok bad) (hr : s.room = none) :
    (m s).2.Sound ∧ (m s).2.room = none :=
  ⟨h.after.sound, h.after.room.trans hr⟩

theorem settles_of_cuts (d : Document) (isSet : Nat → Prop) : Settles d isSet True := .inl trivial

theorem Session.Sound.ready (hs : s.Sound) : Ready s.document (fun _ => False) s :=
  ⟨hs, rfl, fun _ h => h.elim⟩

theorem Reached.sound (h : Reached s) : s.Sound ∧ s.room = none := by
  have room {s : Session} (hr : s.room = none) (n : Nat) : s.room.allows n = true :=
    Room.allows_of_eq_none hr n
  induction h with
  | new h => exact ⟨h.sound, h.room⟩
  | types h ih => exact (importTypes_yields ih.1 (room ih.2 _)).unlimited ih.2
  | functions h ih =>
      exact (importFunctions_leads (settles_of_cuts _ _) ih.1.ready ih.2).unlimited ih.2
  | globals h ih =>
      exact (importGlobals_leads (settles_of_cuts _ _) ih.1.ready ih.2).unlimited ih.2
  | entry h index ih =>
      exact (typeAt_yields (settles_of_cuts _ _) ih.1.ready (room ih.2 _)).unlimited ih.2
  | node h hn hh ih =>
      exact (typeOf_yields (settles_of_cuts _ _) hn ih.1.ready hh (room ih.2 _)).unlimited ih.2
  | variable_ h hn ih =>
      have hv : Yields _ _ _ _ NoFault :=
        variableTypeOf_yields (settles_of_cuts _ _) hn ih.1.ready (room ih.2 _)
      exact hv.unlimited ih.2
  | fill h hn hs ih =>
      have hf : Yields _ _ _ _ NoFault :=
        fill_ends (settles_of_cuts _ _) hn ih.1.ready hs (room ih.2 _)
      exact hf.unlimited ih.2
  | monitor h m ih => exact ⟨{ ih.1 with }, ih.2⟩
  | program h hp ih => exact ⟨ih.1.grow hp, ih.2⟩

/-! ## No entry is opened twice -/

theorem runs_knownEntry_of_mem {opened : List Nat} {index : Int} (h : index.toNat ∈ opened)
    (s : Session) :
    Runs ( knownEntry? opened index) s (fun known _ => known.isSome) fun _ _ => True := by
  have hreport (text : String) (t : Session) :
      Runs (do diagnose typesSource text; return some (← undefined1)) t
        (fun known _ => known.isSome) fun _ _ => True := by
    rw [Runs.bind_iff]
    refine Runs.of_all (fun _ t => ?_) fun _ _ => trivial
    rw [Runs.bind_iff]
    exact Runs.of_all (fun _ _ => rfl) fun _ _ => trivial
  rw [ knownEntry?, Runs.bind_iff]
  refine Runs.of_all (fun _ t => ?_) fun _ _ => trivial
  rw [Runs.bind_iff, Runs.get_iff]
  dsimp only
  split
  · exact hreport _ t
  · split
    · exact rfl
    · rw [if_pos (by simpa using h)]
      exact hreport _ t

/-- An entry in the course of resolution is not resolved again inside, however many entries may
still be opened. -/
theorem typeAtWithin_of_mem {opened : List Nat} {index : Int} (h : index.toNat ∈ opened)
    (budget : Nat) : typeAtWithin budget opened index = typeAtWithin 0 opened index := by
  cases budget with
  | zero => rfl
  | succ budget =>
      funext s
      simp only [typeAtWithin, inside]
      split
      · rw [Runs.bind_congr (Runs.mono (runs_knownEntry_of_mem h _) ?_ fun _ _ h => h)]
        intro known t hk
        cases known with
        | some id => rfl
        | none => cases hk
      · rfl

/-- Every way of making types ends in the session, given the room for the entries of the table and
for the nodes that stand inside one another. -/
structure ResolutionEnds (s : Session) : Prop where
  types : s.room.allows (fillNeed s.document) = true → ∃ s', importTypes s = (.ok (), s')
  entry : ∀ index, s.room.allows (tableNeed s.document) = true →
    ∃ id s', typeAt index s = (.ok id, s')
  node : ∀ n : Node, n.WellTyped → ∀ hint : Json, hint.IsName →
    s.room.allows (nodeNeed (tableNeed s.document) n.height) = true →
    (∃ id s', typeOf n hint s = (.ok id, s')) ∨
      ∃ e s', typeOf n hint s = (.error e, s') ∧ e.isTypeFault = true
  variable_ : ∀ n : Option Node, (∀ m ∈ n, m.WellTyped) →
    s.room.allows (nodeNeed (tableNeed s.document) (Node.heightOfOptional n)) = true →
    ∃ id s', variableTypeOf n s = (.ok id, s')
  fill : ∀ shell kind, s.IsComposite shell kind → ∀ c bases fields members,
    (Node.composite c (kind = .record) bases fields members).WellTyped →
    s.room.allows (nodeNeed (tableNeed s.document)
      (Node.composite c (kind = .record) bases fields members).height) = true →
    ∃ s', fill typeAt shell (kind = .record) bases fields s = (.ok (), s')
  once : ∀ budget opened (index : Int), index.toNat ∈ opened →
    typeAtWithin budget opened index s = typeAtWithin 0 opened index s

theorem resolution_ends (h : Reached s) (r : Room) : ResolutionEnds { s with room := r } := by
  have hs : Ready s.document (fun _ => False) { s with room := r } := h.sound.1.ready.inside r
  have hl := settles_of_cuts s.document fun _ => False
  constructor
  · intro hr
    obtain ⟨_, s', hs', -⟩ := (importTypes_yields hs.sound hr).exists_ok
    exact ⟨s', hs'⟩
  · intro index hr
    obtain ⟨id, s', hs', -⟩ := (typeAt_yields hl hs hr).exists_ok
    exact ⟨id, s', hs'⟩
  · intro n hn hint hh hr
    rcases (typeOf_yields hl hn hs hh hr).exists_result with ⟨id, t, hm, -⟩ | ⟨e, t, hm, -, he⟩
    · exact .inl ⟨id, t, hm⟩
    · exact .inr ⟨e, t, hm, he⟩
  · intro n hn hr
    have hv : Yields { cuts := True } (variableTypeOf n) { s with room := r }
        (fun id s' => id < s'.program.arena.size) NoFault := by
      cases n with
      | some m => exact variableTypeOf_yields hl (hn m rfl) hs hr
      | none =>
          have hthrow : Yields { cuts := True } (optionalTypeOf none .null)
              { s with room := r } (fun _ _ => False) TypeFault := .throw hs.sound rfl
          refine (variableType_yields (Room.allows_of_le hr ?_) hthrow fun _ _ h => h).mono
            (fun _ _ _ h => h.1) fun _ _ _ h => h
          have := reportingCalls_le_tableNeed s.document
          simp only [nodeNeed]
          omega
    obtain ⟨id, s', hs', -⟩ := hv.exists_ok
    exact ⟨id, s', hs'⟩
  · intro shell kind hshell c bases fields members hn hr
    have hf : Yields { cuts := True } (fill typeAt shell (kind = .record) bases fields)
        { s with room := r } (fun _ _ => True) NoFault := by
      refine fill_ends hl hn hs ?_ hr
      cases kind <;> exact hshell
    obtain ⟨_, s', hs', -⟩ := hf.exists_ok
    exact ⟨s', hs'⟩
  · intro budget opened index hm
    rw [typeAtWithin_of_mem hm]

/-- A session in which nothing was done yet to an empty program is new. -/
theorem Session.IsNew.of_document {d : Document} (hd : d.WellTyped) :
    Session.IsNew { document := d, program := {} } where
  document := hd
  program := Program.sound_empty
  naming := rfl
  knowsPointerSize := rfl
  table := rfl
  isPrepared := rfl
  cache := rfl
  room := rfl

/-- Two names that stand for each other. -/
def circularDocument : Document where
  types :=
    [.typeName { serial := 0, name := .text "a" } ⟨.text "b", -1, none⟩,
     .typeName { serial := 1, name := .text "b" } ⟨.text "a", -1, none⟩]
  size := 2

def circularSession : Session := { document := circularDocument, program := {} }

theorem circularSession_isNew : circularSession.IsNew := by
  have name (t : String) : (Json.text t).IsName := .inr ⟨t, rfl⟩
  refine .of_document ⟨?_, nofun⟩
  simp only [circularDocument, List.forall_mem_cons]
  exact ⟨Node.wellTyped_typeName (name _) (name _),
    Node.wellTyped_typeName (name _) (name _), nofun⟩

theorem resolution_ends_circular : ∃ id s', typeAt 0 circularSession = (.ok id, s') :=
  (resolution_ends (.new circularSession_isNew) none).entry 0 rfl

end Import

end StabsImport

import StabsImport.Import.Types
import StabsImport.Proofs.Nodes
import StabsImport.Proofs.Registry

/-!
# Sound sessions

What holds of the state of an import at all times, and what resolution may change of it. Nothing
that is known of a type is taken back: its links, its name and its kind stay.
-/

namespace StabsImport

def Shape.isNominal : Shape → Bool
  | enumeration .. | composite .. => true
  | _ => false

/-- The shape of a type that is of the node's own kind. -/
def Document.Node.Fits : Document.Node → Shape → Prop
  | .enumeration .., .enumeration .. => True
  | .composite _ isRecord _ _ _, .composite c => c.kind = if isRecord then .record else .union
  | _, _ => False

namespace Import

open Document (Node)

namespace Session

/-- The type of an entry, if it has one already. -/
def typeAt? (s : Session) (k : Nat) : Option TypeId := s.table[k]?.join

/-- The type is of the node's own kind and registered under its own name. -/
def IsRegistered (s : Session) (n : Node) (id : TypeId) : Prop :=
  ∃ name shape, s.program.arena.get? id = some (.named name shape) ∧ n.Fits shape ∧
    s.program.registry.get? name = some id

/-- What holds of every session over a document of the right kinds of values. -/
structure Sound (s : Session) : Prop where
  typed : s.document.WellTyped
  knowsPointerSize : s.knowsPointerSize = true
  naming : s.program.arena.room = none
  program : s.program.Sound
  prepared : s.isPrepared = true → s.table.size = s.document.types.length
  unprepared : s.isPrepared = false → s.table = #[]
  entry_lt : ∀ {k id}, s.typeAt? k = some id → id < s.program.arena.size
  nominal : ∀ {k id node}, s.typeAt? k = some id → s.document.types[k]? = some node →
    node.isNominal = true → s.IsRegistered node id
  builtIns : ∀ {c id}, s.cache.builtIns.get? c = some id →
    s.program.arena.get? id = some (builtInType c)
  pointers : ∀ {target size id}, s.cache.pointers.get? (target, size) = some id →
    s.program.arena.get? id = some (.pointer target size)
  arrays : ∀ {element count id}, s.cache.arrays.get? (element, count) = some id →
    s.program.arena.get? id = some (.array element count) ∧ 0 ≤ count
  nodes : ∀ {serial id}, s.cache.nodes.get? serial = some id → id < s.program.arena.size

theorem typeAt?_eq_some {s : Session} {k : Nat} {id : TypeId} :
    s.typeAt? k = some id ↔ s.table[k]? = some (some id) := by
  simp [typeAt?, Option.join_eq_some_iff]

theorem typeAt?_set (s : Session) (k j : Nat) (id : TypeId) :
    Session.typeAt? { s with table := s.table.setIfInBounds k (some id) } j =
      if k = j ∧ j < s.table.size then some id else s.typeAt? j := by
  simp only [typeAt?, Array.getElem?_setIfInBounds]
  split
  · next h =>
      subst h
      split <;> simp_all
  · next h => rw [if_neg fun hc => h hc.1]

theorem typeAt?_replicate (s : Session) (n k : Nat) :
    Session.typeAt? { s with table := Array.replicate n none, isPrepared := true } k = none := by
  simp only [typeAt?, Array.getElem?_replicate]
  split <;> rfl

/-- The session is that of a document no entry of which has a type yet. -/
def IsFresh (s : Session) : Prop := ∀ k, s.typeAt? k = none

theorem isFresh_of_table {s : Session} (h : s.table = #[]) : s.IsFresh := by
  intro k
  simp [typeAt?, h]

end Session

/-- A type stays as it is, except that a composite may take on members. -/
def Evolves (t t' : TypeObject) : Prop :=
  t' = t ∨ ∃ name c c', t = .named name (.composite c) ∧ t' = .named name (.composite c') ∧
    c'.kind = c.kind ∧ c.size ≤ c'.size

def loopText (index : Int) : String := s!"Type {index} refers to itself, using undefined1"

/-- A notice that an entry refers to itself, which is where a loop is cut. -/
def IsLoopNotice (n : Notice) : Prop := ∃ index, n = .diagnostic typesSource (loopText index)

theorem not_isLoopNotice_of_head {source text : String} (h : text.toList.head? ≠ some 'T') :
    ¬ IsLoopNotice (.diagnostic source text) := by
  rintro ⟨index, he⟩
  cases he
  exact h (by simp [loopText, toString, String.toList_append])

theorem not_isLoopNotice_of_last {source text : String} (h : text.toList.getLast? ≠ some '1') :
    ¬ IsLoopNotice (.diagnostic source text) := by
  rintro ⟨index, he⟩
  cases he
  exact h (by simp [loopText, toString, String.toList_append, List.getLast?_cons,
    List.getLast?_append])

theorem not_isLoopNotice_of_source {source text : String} (h : source ≠ typesSource) :
    ¬ IsLoopNotice (.diagnostic source text) := by
  rintro ⟨index, he⟩
  cases he
  exact h rfl

/-- Whether an action may cut loops, which entries, open already, it does not enter, and whether it
may give an entry another type. -/
structure Scope where
  cuts : Prop
  isOpen : Nat → Prop := fun _ => False
  replaces : Prop := False

/-- What is done while an entry is open does not enter it. -/
def Scope.opening (L : Scope) (k : Nat) : Scope :=
  { L with isOpen := fun j => j = k ∨ L.isOpen j }

variable {L : Scope} {s s' s'' : Session}

/-- What an import may change: it adds types, entries and notices, and takes none back. -/
structure Extends (L : Scope) (s s' : Session) : Prop where
  document : s'.document = s.document
  room : s'.room = s.room
  pointerSize : s'.program.pointerSize = s.program.pointerSize
  evolves : ∀ {id t}, s.program.arena.get? id = some t →
    ∃ t', s'.program.arena.get? id = some t' ∧ Evolves t t'
  registry : ∀ {name id}, s.program.registry.get? name = some id →
    s'.program.registry.get? name = some id
  entry : ∀ {k id}, s.typeAt? k = some id →
    s'.typeAt? k = some id ∨ L.replaces ∧ s'.typeAt? k ≠ none
  stillOpen : ∀ {k}, L.isOpen k → s.typeAt? k = none → s'.typeAt? k = none
  prepared : s.isPrepared = true → s'.isPrepared = true
  builtIns : ∀ {c id}, s.cache.builtIns.get? c = some id → s'.cache.builtIns.get? c = some id
  pointers : ∀ {k id}, s.cache.pointers.get? k = some id → s'.cache.pointers.get? k = some id
  arrays : ∀ {k id}, s.cache.arrays.get? k = some id → s'.cache.arrays.get? k = some id
  journal : ∃ notices, s'.journal.toList = s.journal.toList ++ notices ∧
    ∀ n ∈ notices, IsLoopNotice n → L.cuts

namespace Evolves

theorem refl (t : TypeObject) : Evolves t t := .inl rfl

theorem trans {t t' t'' : TypeObject} (h : Evolves t t') (h' : Evolves t' t'') :
    Evolves t t'' := by
  rcases h with rfl | ⟨name, c, c', rfl, rfl, hk, hs⟩
  · exact h'
  · rcases h' with rfl | ⟨_, _, c'', heq, rfl, hk', hs'⟩
    · exact .inr ⟨name, c, c', rfl, rfl, hk, hs⟩
    · cases heq
      exact .inr ⟨name, c, c'', rfl, rfl, hk'.trans hk, Int.le_trans hs hs'⟩

end Evolves

namespace Extends

theorem lt_size (h : Extends L s s') {id : TypeId} (hid : id < s.program.arena.size) :
    id < s'.program.arena.size := by
  obtain ⟨t', ht, _⟩ := h.evolves (Array.getElem?_eq_getElem hid)
  exact Arena.lt_size_of_get? ht

theorem refl (s : Session) : Extends L s s where
  document := rfl
  room := rfl
  pointerSize := rfl
  evolves {_ t} h := ⟨t, h, .refl t⟩
  registry h := h
  entry h := .inl h
  stillOpen _ h := h
  prepared h := h
  builtIns h := h
  pointers h := h
  arrays h := h
  journal := ⟨[], by simp, by simp⟩

theorem unset (h : Extends L s s') {k : Nat} (hk : s'.typeAt? k = none) : s.typeAt? k = none := by
  cases hs : s.typeAt? k with
  | none => rfl
  | some id =>
      rcases h.entry hs with h | h
      · rw [h] at hk
        cases hk
      · exact absurd hk h.2

theorem trans (h : Extends L s s') (h' : Extends L s' s'') : Extends L s s'' where
  document := h'.document.trans h.document
  room := h'.room.trans h.room
  pointerSize := h'.pointerSize.trans h.pointerSize
  evolves hg := by
    obtain ⟨t', hg', ht⟩ := h.evolves hg
    obtain ⟨t'', hg'', ht'⟩ := h'.evolves hg'
    exact ⟨t'', hg'', ht.trans ht'⟩
  registry hr := h'.registry (h.registry hr)
  entry {k id} he := by
    rcases h.entry he with he | ⟨hr, hn⟩
    · exact h'.entry he
    · exact .inr ⟨hr, fun hk => hn (h'.unset hk)⟩
  stillOpen hk hn := h'.stillOpen hk (h.stillOpen hk hn)
  prepared hp := h'.prepared (h.prepared hp)
  builtIns hc := h'.builtIns (h.builtIns hc)
  pointers hc := h'.pointers (h.pointers hc)
  arrays hc := h'.arrays (h.arrays hc)
  journal := by
    obtain ⟨ns, hn, hj⟩ := h.journal
    obtain ⟨ns', hn', hj'⟩ := h'.journal
    refine ⟨ns ++ ns', by rw [hn', hn, List.append_assoc], fun n hm => ?_⟩
    rcases List.mem_append.mp hm with hm | hm
    · exact hj n hm
    · exact hj' n hm

theorem mono {L' : Scope} (h : Extends L s s') (cuts : L.cuts → L'.cuts)
    (isOpen : ∀ k, L'.isOpen k → L.isOpen k) (replaces : L.replaces → L'.replaces) :
    Extends L' s s' :=
  { h with
    entry := fun he => (h.entry he).imp_right fun hr => ⟨replaces hr.1, hr.2⟩
    stillOpen := fun hk => h.stillOpen (isOpen _ hk)
    journal := by
      obtain ⟨ns, hn, hm⟩ := h.journal
      exact ⟨ns, hn, fun n h hl => cuts (hm n h hl)⟩ }

end Extends

/-! ## Sound sessions stay sound -/

theorem builtInType_plain {c : Document.BuiltInClass} {name : Json} {shape : Shape}
    (h : builtInType c = .named name shape) : shape.isNominal = false := by
  cases c <;> cases h <;> rfl

namespace Session.Sound

/-- Nominal types may change as long as they keep their kind and, if registered, their name. -/
theorem withProgram (h : s.Sound) {p : Program} (sound : p.Sound)
    (room : p.arena.room = s.program.arena.room)
    (plain : ∀ {id t}, s.program.arena.get? id = some t →
      (∀ name shape, t = .named name shape → shape.isNominal = false) → p.arena.get? id = some t)
    (nominal : ∀ {id name shape}, s.program.arena.get? id = some (.named name shape) →
      s.program.registry.get? name = some id →
      ∃ shape', p.arena.get? id = some (.named name shape') ∧ ∀ n : Node, n.Fits shape → n.Fits shape')
    (size_le : s.program.arena.size ≤ p.arena.size)
    (registry : ∀ {name id}, s.program.registry.get? name = some id →
      p.registry.get? name = some id) :
    Session.Sound { s with program := p } where
  typed := h.typed
  knowsPointerSize := h.knowsPointerSize
  naming := room.trans h.naming
  program := sound
  prepared := h.prepared
  unprepared := h.unprepared
  entry_lt he := Nat.lt_of_lt_of_le (h.entry_lt he) size_le
  nominal he hd hn := by
    obtain ⟨name, shape, hg, hf, hr⟩ := h.nominal he hd hn
    obtain ⟨shape', hg', hf'⟩ := nominal hg hr
    exact ⟨name, shape', hg', hf' _ hf, registry hr⟩
  builtIns hc := plain (h.builtIns hc) fun _ _ he => builtInType_plain he
  pointers hc := plain (h.pointers hc) fun _ _ he => by cases he
  arrays hc := (h.arrays hc).imp_left fun hg => plain hg fun _ _ he => by cases he
  nodes hc := Nat.lt_of_lt_of_le (h.nodes hc) size_le

theorem push (h : s.Sound) {t : TypeObject} (ht : s.program.arena.IsPlain t) :
    Session.Sound { s with program := { s.program with arena := s.program.arena.push t } } :=
  h.withProgram (h.program.push (h.program.arena.push ht)) rfl
    (fun hg _ => Arena.get?_push_of_get? _ hg)
    (fun {_ _ shape} hg _ => ⟨shape, Arena.get?_push_of_get? _ hg, fun _ hf => hf⟩)
    (by rw [Arena.size_push]; exact Nat.le_succ _) fun hr => hr

/-- A composite may take on members. -/
theorem setComposite (h : s.Sound) {id : TypeId} {name : Json} {c c' : Composite}
    (hid : s.program.arena.get? id = some (.named name (.composite c))) (kind : c'.kind = c.kind)
    (placed : ∀ m ∈ c'.components, m.type < s.program.arena.size) :
    Session.Sound
      { s with
        program := { s.program with
          arena := s.program.arena.set id (.named name (.composite c')) } } := by
  have hlt := Arena.lt_size_of_get? hid
  refine h.withProgram (h.program.setComposite hid placed) rfl ?_ ?_
    (Nat.le_of_eq (Arena.size_set _ _ _).symm) fun hr => hr
  · intro k t hg ht
    have hk : k ≠ id := by
      rintro rfl
      rw [hid] at hg
      cases hg
      cases ht _ _ rfl
    rw [Arena.get?_set_of_ne _ _ hk, hg]
  · intro k own shape hg _
    by_cases hk : k = id
    · subst hk
      rw [hid] at hg
      cases hg
      refine ⟨_, Arena.get?_set_self _ hlt, fun n hf => ?_⟩
      cases n with
      | composite => exact kind.trans hf
      | _ => exact hf
    · exact ⟨shape, by rw [Arena.get?_set_of_ne _ _ hk, hg], fun _ hf => hf⟩

/-- A new type may be registered under a free name. -/
theorem register (h : s.Sound) {own : String} {shape : Shape}
    (ht : s.program.arena.IsPlain (.named (.text own) shape))
    (free : s.program.registry.get? (.text own) = none) :
    Session.Sound
      { s with
        program := { s.program with
          arena := s.program.arena.push (.named (.text own) shape)
          registry := s.program.registry.put (.text own) s.program.arena.size } } := by
  have hp := (h.push ht).program
  have hr := hp.registered own (Arena.get?_push_self _ _) fun n hn =>
    Nat.lt_irrefl _ (h.program.lt_size hn)
  rw [Program.registered] at hr
  simp only [Arena.set_eq_self (Arena.get?_push_self _ _)] at hr
  refine h.withProgram hr rfl (fun hg _ => Arena.get?_push_of_get? _ hg)
    (fun {_ _ shape} hg _ => ⟨shape, Arena.get?_push_of_get? _ hg, fun _ hf => hf⟩)
    (by rw [Arena.size_push]; exact Nat.le_succ _) fun hn => ?_
  exact Ledger.get?_put_of_free free hn

end Session.Sound

end Import

end StabsImport

import Mathlib.Data.Nat.Find
import StabsImport.Proofs.Identities

/-!
# Declarations and their definition

The first structure or union of a name that is free gets the name. A later one has the same type if
it is of its kind and declares no size or that size. So the declarations of a name, which have no
size, have one type. The definition, which alone fills it, has that type too if it is the first of
them, and another one if a declaration stands before it. Main statement: `importTypes_unites`.
-/

namespace StabsImport.Import

open Document (Node Base)

variable {s t u : Session} {d : Document} {m head index : Nat} {name own : String} {id : TypeId}
  {kind : CompositeKind} {size : Int}

/-- No structure, union or enumeration of the name stands before this entry. -/
def ComesFirst (d : Document) (k : Nat) (name : String) : Prop :=
  ∀ ⦃j node⦄, d.types[j]? = some node → node.isNominal = true → entryName node j = .text name →
    k ≤ j

/-- The entry is a structure or union of this kind for which one of this size will do. -/
def Suits (d : Document) (k : Nat) (name : String) (kind : CompositeKind) (size : Int) : Prop :=
  ∃ declared, Declares d k name kind declared ∧ (declared = 0 ∨ declared = size)

theorem Declares.entryName_eq {k : Nat} {node : Node} (h : Declares d k name kind size)
    (hk : d.types[k]? = some node) : entryName node k = .text name := by
  obtain ⟨_, _, _, _, _, hk', hn, -, -⟩ := h
  rw [hk] at hk'
  cases hk'
  exact hn

/-- No entry of another name, of those before one, has the type of the name. -/
def Untaken (d : Document) (name : String) (index : Nat) (s : Session) : Prop :=
  ∀ ⦃k node⦄, k < index → d.types[k]? = some node → node.isNominal = true →
    entryName node k ≠ .text name → ∀ ⦃id⦄, s.program.registry.get? (.text name) = some id →
      s.typeAt? k ≠ some id

/-! ## Registering the table -/

/-- Up to the first entry of the name the name is free. From there on it leads to the shell of that
entry, which is the type of the entries for which it will do and of no others. -/
structure Leading (d : Document) (head : Nat) (name : String) (kind : CompositeKind) (size : Int)
    (index : Nat) (s : Session) : Prop where
  free : index ≤ head → s.program.registry.get? (.text name) = none
  made : head < index → ∃ id, s.program.registry.get? (.text name) = some id ∧
    s.program.arena.get? id = some (.named (.text name) (.composite (.empty kind size))) ∧
    ∀ k < index, ∀ node, d.types[k]? = some node → node.isNominal = true →
      (s.typeAt? k = some id ↔ Suits d k name kind size)

section

variable {shape : Shape} {node : Node}

/-- What is taken stays so while the table is registered. -/
theorem Untaken.before
    (h : Untaken d name (index + 1) { t with table := t.table.setIfInBounds index (some id) })
    (hl : Lists s t shape id) : Untaken d name index s := by
  intro k node hk hn hnom hown x hx he
  refine h (Nat.lt_succ_of_lt hk) hn hnom hown (hl.registry hx) ?_
  rw [Session.typeAt?_set, if_neg fun hc => Nat.ne_of_gt hk hc.1, hl.entry]
  exact he

/-- So an entry of another name has another type. -/
theorem Untaken.ne
    (h : Untaken d name (index + 1) { t with table := t.table.setIfInBounds index (some id) })
    (hn : d.types[index]? = some node) (hnom : node.isNominal = true)
    (hown : entryName node index ≠ .text name) (hin : index < t.table.size) :
    t.program.registry.get? (.text name) ≠ some id :=
  fun hr => h (Nat.lt_succ_self _) hn hnom hown hr (typeAt?_setEntry id hin)

namespace Leading

/-- The first entry of the name takes it. -/
theorem first (h : Leading d head name kind size head s) (hs : s.Sound)
    (hd : Declares d head name kind size) (hf : ComesFirst d head name)
    (hr : s.Registers name (.composite (.empty kind size)) id t) (hin : head < t.table.size) :
    Leading d head name kind size (head + 1)
      { t with table := t.table.setIfInBounds head (some id) } where
  free hle := absurd hle (by omega)
  made _ := by
    obtain ⟨rfl, rfl⟩ := hr.of_free (h.free (Nat.le_refl _))
    refine ⟨s.program.arena.size, Ledger.get?_put_self _ _ _, Arena.get?_push_self _ _,
      fun k hk node hn hnom => ?_⟩
    rw [Session.typeAt?_set]
    by_cases hkh : k = head
    · subst hkh
      rw [if_pos ⟨rfl, hin⟩]
      exact ⟨fun _ => ⟨size, hd, .inr rfl⟩, fun _ => rfl⟩
    · rw [if_neg fun hc => hkh hc.1.symm]
      constructor
      · intro he
        have he : s.typeAt? k = some s.program.arena.size := he
        exact absurd (hs.entry_lt he) (Nat.lt_irrefl _)
      · rintro ⟨_, hk', -⟩
        exact absurd (hf hn hnom (hk'.entryName_eq hn)) (by omega)

/-- Every other entry leaves the name as it is, and has its type if that will do for it. -/
theorem other (h : Leading d head name kind size index s) (hs : s.Sound) (hne : index ≠ head)
    (hl : Lists s t shape id) (hin : index < t.table.size)
    (free : index < head → t.program.registry.get? (.text name) ≠ some id)
    (same : head < index → ∀ {x}, t.program.registry.get? (.text name) = some x →
      t.program.arena.get? x = some (.named (.text name) (.composite (.empty kind size))) →
      (id = x ↔ Suits d index name kind size)) :
    Leading d head name kind size (index + 1)
      { t with table := t.table.setIfInBounds index (some id) } where
  free hle := by
    refine Option.eq_none_iff_forall_ne_some.mpr fun x hx => ?_
    rcases hl.listed hx with hx | ⟨rfl, -⟩
    · rw [h.free (by omega)] at hx
      cases hx
    · exact free (by omega) hx
  made hlt := by
    have hlt : head < index := by omega
    obtain ⟨x, hx, hshell, hentries⟩ := h.made hlt
    have hshell := (hl.kept (hs.program.lt_size hx)).trans hshell
    refine ⟨x, hl.registry hx, hshell, fun k hk other hother hnom => ?_⟩
    rw [Session.typeAt?_set]
    by_cases hki : k = index
    · subst hki
      rw [if_pos ⟨rfl, hin⟩, Option.some.injEq]
      exact same hlt (hl.registry hx) hshell
    · rw [if_neg fun hc => hki hc.1.symm, hl.entry]
      exact hentries k (by omega) other hother hnom

theorem skip (h : Leading d head name kind size index s) (hne : index ≠ head)
    (plain : ∀ node, d.types[index]? = some node → node.isNominal = false) :
    Leading d head name kind size (index + 1) s where
  free hle := h.free (by omega)
  made hlt := by
    obtain ⟨x, hx, hshell, hentries⟩ := h.made (by omega)
    refine ⟨x, hx, hshell, fun k hk node hn hnom => ?_⟩
    by_cases hki : k = index
    · rw [plain node (hki ▸ hn)] at hnom
      cases hnom
    · exact hentries k (by omega) node hn hnom

end Leading

/-- A structure or union has the type of its plain name if and only if that will do for it. -/
theorem Session.Registers.eq_iff (hs : s.Sound) {declared : Int}
    {kind' : CompositeKind} (hr : s.Registers name (.composite (.empty kind' declared)) id t)
    {x : TypeId} (hx : t.program.registry.get? (.text name) = some x)
    (hshell : t.program.arena.get? x = some (.named (.text name) (.composite (.empty kind size)))) :
    id = x ↔ kind' = kind ∧ (declared = 0 ∨ declared = size) := by
  have admits : t.program.arena.Admits kind' declared x ↔
      kind' = kind ∧ (declared = 0 ∨ declared = size) := by
    rw [Arena.Admits, Arena.composite?_eq_some.mpr ⟨_, hshell⟩]
    constructor
    · rintro ⟨made, heq, hkind, h⟩
      cases heq
      exact ⟨hkind.symm, h⟩
    · rintro ⟨rfl, h⟩
      exact ⟨_, rfl, rfl, h⟩
  obtain ⟨n, hseat⟩ := hr.seats hs
  rw [← admits]
  constructor
  · rintro rfl
    exact hseat.admits
  · intro hadmits
    have hn : n = 0 := by
      refine Nat.eq_zero_of_not_pos fun hpos => ?_
      obtain ⟨y, hy, hbar⟩ := hseat.before 0 hpos
      obtain rfl : y = x := Option.some.inj (Eq.trans hy.symm hx)
      exact hbar hadmits
    subst hn
    exact Option.some.inj (Eq.trans hseat.here.symm hx)

namespace Leading

/-- An enumeration is not the first entry of the name, and no type will do for it. -/
theorem enumeration (h : Leading d head name kind size index s) (hs : s.Sound)
    (hd : Declares d head name kind size) (hf : ComesFirst d head name) {e : Document.Common}
    {constants : List (Int × Json)} (hnode : d.types[index]? = some (.enumeration e constants))
    (hl : Lists s t shape id) (hin : index < t.table.size)
    (plain : ∀ own made, t.program.arena.get? id ≠ some (.named own (.composite made)))
    (hu : Untaken d name (index + 1) { t with table := t.table.setIfInBounds index (some id) }) :
    Leading d head name kind size (index + 1)
      { t with table := t.table.setIfInBounds index (some id) } := by
  have undeclared {declared : Int} : ¬ Declares d index name kind declared :=
    not_declares hnode fun _ _ _ _ _ h => by cases h
  refine h.other hs (fun he => undeclared (he ▸ hd)) hl hin (fun hlt => ?_) fun _ x _ hshell => ?_
  · exact hu.ne hnode rfl (fun hown => Nat.not_le.mpr hlt (hf hnode rfl hown)) hin
  · exact ⟨fun he => absurd hshell (he ▸ plain _ _), fun ⟨_, hk, _⟩ => absurd hk undeclared⟩

/-- A structure or union is the first entry of the name, or a later one, or one of another name. -/
theorem shell (h : Leading d head name kind size index s) (hs : s.Sound)
    (hd : Declares d head name kind size) (hf : ComesFirst d head name)
    (hnode : d.types[index]? = some node) (hnom : node.isNominal = true) {kind' : CompositeKind}
    {declared : Int} (hown : Declares d index own kind' declared)
    (hr : s.Registers own (.composite (.empty kind' declared)) id t) (hin : index < t.table.size)
    (hu : Untaken d name (index + 1) { t with table := t.table.setIfInBounds index (some id) }) :
    Leading d head name kind size (index + 1)
      { t with table := t.table.setIfInBounds index (some id) } := by
  by_cases hne : own = name
  · subst hne
    by_cases hih : index = head
    · subst hih
      obtain ⟨-, rfl, rfl⟩ := hown.unique hd
      exact h.first hs hd hf hr hin
    · have behind : head ≤ index := hf hnode hnom (hown.entryName_eq hnode)
      refine h.other hs hih hr.lists hin (fun hlt => absurd behind (Nat.not_le.mpr hlt)) ?_
      intro _ x hx hshell
      rw [hr.eq_iff hs hx hshell]
      constructor
      · rintro ⟨rfl, hsize⟩
        exact ⟨_, hown, hsize⟩
      · rintro ⟨_, hk, hsize⟩
        obtain ⟨-, rfl, rfl⟩ := hown.unique hk
        exact ⟨rfl, hsize⟩
  · have undeclared {size' : Int} {kind' : CompositeKind} :
        ¬ Declares d index name kind' size' :=
      fun hk => hne (hown.unique hk).1
    have hfree := hu.ne hnode hnom
      (fun he => hne (Json.text.inj ((hown.entryName_eq hnode).symm.trans he))) hin
    refine h.other hs (fun he => undeclared (he ▸ hd)) hr.lists hin (fun _ => hfree) ?_
    intro _ x hx _
    exact ⟨fun he => absurd (he ▸ hx) hfree, fun ⟨_, hk, _⟩ => absurd hk undeclared⟩

end Leading

theorem registerEntry_leads (hd : Declares d head name kind size) (hf : ComesFirst d head name) :
    RegistersEach d fun index s =>
      Untaken d name index s → Leading d head name kind size index s := by
  intro s hs hdoc hp hr index node hnode
  have hnode' : s.document.types[index]? = some node := hdoc ▸ hnode
  have ht : node.WellTyped := hs.typed.types node (List.mem_of_getElem? hnode')
  obtain ⟨own, hown⟩ := entryName_text ht.typed.name index
  cases node with
  | enumeration e constants =>
      simp only [registerEntry, hown]
      refine (register_yields hp trivial (fun h => h) hnode'
        (hs.addEnumeration hr own e ht.typed.2) _).mono ?_ fun _ _ _ h => h
      rintro _ _ ha ⟨hset, id, t, ⟨u, hg, hnew⟩, hin, rfl⟩
      have hl := hnew.lists.before_gains hg
      obtain ⟨_, shape, hshape, hfits, -⟩ :=
        ha.sound.nominal (typeAt?_setEntry id hin) (ha.document.symm ▸ hnode') rfl
      refine ⟨fun _ => hset, fun h hu => (h (hu.before hl)).enumeration hs hd hf hnode hl hin ?_ hu⟩
      intro own made hmade
      rw [hmade] at hshape
      cases hshape
      cases hfits
  | composite e isRecord bases fields functions =>
      have declared : Declares d index own (kindOf isRecord) (declaredBytes e.sizeBits) :=
        ⟨e, isRecord, bases, fields, functions, hnode, hown, rfl, rfl⟩
      simp only [registerEntry, hown]
      refine (register_yields hp trivial (fun h => h) hnode'
        (hs.addShell (Room.allows_of_le hr (by decide)) e isRecord bases fields functions own)
        _).mono ?_ fun _ _ _ h => h
      rintro _ _ - ⟨hset, id, t, hnew, hin, rfl⟩
      exact ⟨fun _ => hset, fun h hu =>
        (h (hu.before hnew.lists)).shell hs hd hf hnode rfl declared hnew hin hu⟩
  | _ =>
      refine .pure hs ⟨fun hn => absurd hn Bool.false_ne_true, fun h hu =>
        (h fun _ _ hk => hu (Nat.lt_succ_of_lt hk)).skip ?_ fun n hn => ?_⟩
      · rintro rfl
        exact not_declares hnode (fun _ _ _ _ _ h => by cases h) hd
      · rw [hnode] at hn
        cases hn
        rfl

end

/-! ## Filling the table -/

section

variable {c : Document.Common} {isRecord : Bool} {bases : List Base} {fields members : List Node}

theorem fill_nil (enter : Int → ImportM TypeId) (shell : TypeId) (isRecord : Bool) :
    fill enter shell isRecord [] [] = inside 1 (pure ()) := by
  rw [fill, fillBases_nil, fillFields_nil]
  cases isRecord <;> rfl

/-- A node that puts no members into a composite. -/
def HasNoMembers (node : Node) : Prop :=
  ∀ {c isRecord bases fields members}, node = .composite c isRecord bases fields members →
    bases = [] ∧ fields = []

/-- To fill an entry without members changes nothing in the program. -/
theorem fillOne_program {node : Node} (h : HasNoMembers node) (k : Nat) (s : Session) :
    (fillFrom k [node] s).2.program = s.program := by
  have hfill (t : Session) : Runs (fillEntry k node) t (fun _ u => u.program = t.program)
      fun _ u => u.program = t.program := by
    rw [fillEntry, Runs.bind_iff, Runs.get_iff]
    split
    · obtain ⟨rfl, rfl⟩ := h rfl
      split
      · rw [fill_nil, runs_inside]
        split <;> rfl
      · rfl
    · rfl
  rw [fillFrom_cons]
  split
  · rfl
  · refine Runs.snd (P := fun t : Session => t.program = s.program) ?_
    rw [Runs.bind_iff]
    exact hfill _

/-- Nothing more is filled once the work is cancelled. -/
theorem fillUpTo_of_cancelled {k : Nat} {a : Unit}
    (hu : fillFrom 0 (s.document.types.take k) s = (.ok a, fillUpTo s k))
    (h : (fillUpTo s k).monitor.isCancelled = true) :
    fillUpTo s s.document.types.length = fillUpTo s k := by
  have htypes := List.take_append_drop k s.document.types
  conv => lhs; rw [fillUpTo, List.take_length, ← htypes, fillFrom_append, Runs.bind_apply, hu]
  show (fillFrom _ _ (fillUpTo s k)).2 = _
  rw [fillFrom_cancelled h]

/-- What none of the entries in a row changes is as it was before them. -/
theorem fillUpTo_kept {j k : Nat} (hjk : j ≤ k) (h : ∀ i, j ≤ i → i < k →
    (fillUpTo s (i + 1)).program.arena.get? id = (fillUpTo s i).program.arena.get? id) :
    (fillUpTo s k).program.arena.get? id = (fillUpTo s j).program.arena.get? id := by
  induction hjk with
  | refl => rfl
  | step hjk ih =>
      exact (h _ hjk (Nat.lt_succ_self _)).trans (ih fun i hj hi => h i hj (Nat.lt_succ_of_lt hi))

theorem fillEntry_apply {k : Nat} (he : s.typeAt? k = some id) {kind : CompositeKind}
    (hc : s.IsComposite id kind) (monitor : Monitor) :
    fillEntry k (.composite c isRecord bases fields members) { s with monitor := monitor } =
      fill typeAt id isRecord bases fields { s with monitor := monitor } := by
  obtain ⟨_, made, hg, -⟩ := hc
  have htable : s.table[k]? = some (some id) := Session.typeAt?_eq_some.mp he
  have hsome : (s.program.arena.composite? id).isSome := by
    rw [Arena.composite?_eq_some.mpr ⟨_, hg⟩]
    rfl
  have hget (t : Session) : (get : ImportM Session) t = (.ok t, t) := rfl
  rw [fillEntry, Runs.bind_apply, hget]
  simp only [htable, hsome, if_true]

/-! ## The definition of a name -/

/-- The entry is the only structure, union or enumeration of its name that is more than a
declaration: the others are of its kind, without a size, base classes and fields. -/
structure DefinedOnce (d : Document) (m : Nat) (name : String) (c : Document.Common)
    (isRecord : Bool) (bases : List Base) (fields members : List Node) : Prop where
  definition : d.types[m]? = some (.composite c isRecord bases fields members)
  named : entryName (.composite c isRecord bases fields members) m = .text name
  declarations : ∀ {k node}, d.types[k]? = some node → node.isNominal = true →
    entryName node k = .text name → k ≠ m → ∃ common functions,
      node = .composite common isRecord [] [] functions ∧ declaredBytes common.sizeBits = 0

namespace DefinedOnce

theorem declares (h : DefinedOnce d m name c isRecord bases fields members) :
    Declares d m name (kindOf isRecord) (declaredBytes c.sizeBits) :=
  ⟨c, isRecord, bases, fields, members, h.definition, h.named, rfl, rfl⟩

theorem declares_other (h : DefinedOnce d m name c isRecord bases fields members) {k : Nat}
    {node : Node} (hk : d.types[k]? = some node) (hn : node.isNominal = true)
    (hown : entryName node k = .text name) (hne : k ≠ m) :
    Declares d k name (kindOf isRecord) 0 := by
  obtain ⟨common, functions, rfl, hsize⟩ := h.declarations hk hn hown hne
  exact ⟨common, isRecord, [], [], functions, hk, hown, rfl, hsize.symm⟩

/-- The first entry of the name is the definition, or a declaration. -/
theorem exists_first (h : DefinedOnce d m name c isRecord bases fields members) :
    ∃ head size, Declares d head name (kindOf isRecord) size ∧ ComesFirst d head name ∧
      (ComesFirst d m name ∨ declaredBytes c.sizeBits = 0 →
        size = declaredBytes c.sizeBits) ∧
      (¬ ComesFirst d m name → size = 0) := by
  classical
  let ofName (k : Nat) : Prop :=
    ∃ node, d.types[k]? = some node ∧ node.isNominal = true ∧ entryName node k = .text name
  have hex : ∃ k, ofName k := ⟨m, _, h.definition, rfl, h.named⟩
  obtain ⟨node, hk, hn, hown⟩ := Nat.find_spec hex
  have hfirst : ComesFirst d (Nat.find hex) name := fun _ _ hj hn' hown' =>
    Nat.find_min' hex ⟨_, hj, hn', hown'⟩
  by_cases hm : Nat.find hex = m
  · rw [hm] at hfirst
    exact ⟨m, _, h.declares, hfirst, fun _ => rfl, fun hne => absurd hfirst hne⟩
  · refine ⟨_, 0, h.declares_other hk hn hown hm, hfirst, fun hor => ?_, fun _ => rfl⟩
    rcases hor with hm' | hzero
    · exact absurd (Nat.le_antisymm (hfirst h.definition rfl h.named) (hm' hk hn hown)) hm
    · exact hzero.symm

/-- The type of the first entry will do for every declaration, and for a definition of its size. -/
theorem suits_iff (h : DefinedOnce d m name c isRecord bases fields members) {k : Nat}
    {node : Node} (hk : d.types[k]? = some node) (hn : node.isNominal = true) (size : Int) :
    Suits d k name (kindOf isRecord) size ↔ entryName node k = .text name ∧
      (k = m → declaredBytes c.sizeBits = 0 ∨ declaredBytes c.sizeBits = size) := by
  constructor
  · rintro ⟨declared, hd, hsize⟩
    refine ⟨hd.entryName_eq hk, ?_⟩
    rintro rfl
    obtain ⟨-, -, rfl⟩ := hd.unique h.declares
    exact hsize
  · rintro ⟨hown, hsize⟩
    by_cases hm : k = m
    · subst hm
      exact ⟨_, h.declares, hsize rfl⟩
    · exact ⟨0, h.declares_other hk hn hown hm, .inl rfl⟩

end DefinedOnce

/-- How the entries of a name come by one composite: `shells` is the session in which all are
registered, `filled` the one in which all are filled. -/
structure Unites (d : Document) (m : Nat) (name : String) (c : Document.Common) (isRecord : Bool)
    (bases : List Base) (fields : List Node) (shells filled : Session) (id : TypeId) : Prop where
  /-- The entries that have the composite are those of the name. -/
  entries : ∀ {k node}, d.types[k]? = some node → node.isNominal = true →
    (filled.typeAt? k = some id ↔ entryName node k = .text name)
  /-- It stands under the plain name. -/
  registered : filled.program.registry.get? (.text name) = some id
  named : ∃ made, filled.program.arena.get? id = some (.named (.text name) (.composite made)) ∧
    made.kind = kindOf isRecord
  /-- It is without members until the definition fills it. -/
  shell : (fillUpTo shells m).program.arena.get? id =
    some (.named (.text name) (.composite (.empty (kindOf isRecord) (declaredBytes c.sizeBits))))
  definition : ∃ monitor, fill typeAt id isRecord bases fields
    { fillUpTo shells m with monitor := monitor } = (.ok (), fillUpTo shells (m + 1))
  /-- It stays as the definition leaves it. -/
  kept : filled.program.arena.get? id = (fillUpTo shells (m + 1)).program.arena.get? id

/-- How the declarations of a name come by a composite that the definition does not have. -/
structure Divides (d : Document) (m : Nat) (name : String) (isRecord : Bool) (filled : Session)
    (id : TypeId) : Prop where
  entries : ∀ {k node}, d.types[k]? = some node → node.isNominal = true →
    (filled.typeAt? k = some id ↔ entryName node k = .text name ∧ k ≠ m)
  /-- It has the plain name, and no size and no members. -/
  registered : filled.program.registry.get? (.text name) = some id
  empty : filled.program.arena.get? id =
    some (.named (.text name) (.composite (.empty (kindOf isRecord) 0)))
  /-- The definition has a name that a conflict gave it. -/
  conflict : ∃ n other, filled.typeAt? m = some other ∧
    filled.program.registry.get? (.text (Program.conflictName name n)) = some other

section

variable {shells : Session}

/-- A declaration changes the composite of the name as little as an entry that has another type. -/
theorem DefinedOnce.fillUpTo_succ (h : DefinedOnce d m name c isRecord bases fields members)
    (hs : Ready d (IsNominalEntry d) shells) (hp : shells.isPrepared = true)
    (hr : shells.room = none) (hid : id < shells.program.arena.size)
    (hentries : ∀ k < d.types.length, ∀ node, d.types[k]? = some node → node.isNominal = true →
      (shells.typeAt? k = some id ↔ Suits d k name (kindOf isRecord) size))
    {k : Nat} (hk : shells.typeAt? k = some id → k ≠ m) :
    (fillUpTo shells (k + 1)).program.arena.get? id =
      (fillUpTo shells k).program.arena.get? id := by
  have hr' : shells.room.allows (fillNeed d) = true := Room.allows_of_eq_none hr _
  cases hnode : d.types[k]? with
  | none =>
      have hle : d.types.length ≤ k := List.getElem?_eq_none_iff.mp hnode
      rw [fillUpTo, fillUpTo, hs.document, List.take_of_length_le (by omega),
        List.take_of_length_le hle]
  | some node =>
      by_cases hidle : HasNoMembers node
      · obtain ⟨-, _, hfill⟩ := fillUpTo_after (.inl trivial) hs hr' k
        have hnext := fillFrom_take_succ hfill (hs.document ▸ hnode)
        have hprogram := fillOne_program hidle k (fillUpTo shells k)
        rw [fillUpTo, hnext, hprogram]
      · refine fillUpTo_apart hs hp hr' k hid fun he => hidle ?_
        rintro e isRecord' bases' fields' members' rfl
        have hlt : k < d.types.length := (List.getElem?_eq_some_iff.mp hnode).1
        obtain ⟨_, hd, -⟩ := (hentries k hlt _ hnode rfl).mp he
        obtain ⟨_, _, heq, -⟩ := h.declarations hnode rfl (hd.entryName_eq hnode) (hk he)
        cases heq
        exact ⟨rfl, rfl⟩

/-- The definition is filled, unless the work is cancelled before its end. -/
theorem fillUpTo_definition (h : DefinedOnce d m name c isRecord bases fields members)
    (hs : Ready d (IsNominalEntry d) shells) (hr : shells.room = none)
    (he : shells.typeAt? m = some id) (uncancelled :
      (fillUpTo shells d.types.length).monitor.isCancelled = false) :
    ∃ monitor, fill typeAt id isRecord bases fields
      { fillUpTo shells m with monitor := monitor } = (.ok (), fillUpTo shells (m + 1)) := by
  have hr' : shells.room.allows (fillNeed d) = true := Room.allows_of_eq_none hr _
  have hdefinition :
      shells.document.types[m]? = some (.composite c isRecord bases fields members) :=
    hs.document ▸ h.definition
  have hl : Settles d (IsNominalEntry d) True := .inl trivial
  obtain ⟨ha, _, hfill⟩ := fillUpTo_after hl hs hr' m
  obtain ⟨-, _, hfill'⟩ := fillUpTo_after hl hs hr' (m + 1)
  have hnext := fillFrom_take_succ hfill hdefinition
  rw [hfill', fillFrom_cons] at hnext
  cases hc : (fillUpTo shells m).monitor.check.1 with
  | true =>
      rw [if_pos hc, Prod.mk.injEq] at hnext
      have hcancelled : (fillUpTo shells (m + 1)).monitor.isCancelled = true := by
        rw [hnext.2]
        exact (Monitor.check_isCancelled _).trans hc
      rw [← hs.document, fillUpTo_of_cancelled hfill' hcancelled, hcancelled] at uncancelled
      cases uncancelled
  | false =>
      refine ⟨(fillUpTo shells m).monitor.check.2, ?_⟩
      have he' : (fillUpTo shells m).typeAt? m = some id := (ha.entry he).resolve_right fun h => h.1
      have hcomposite := (ha.sound.nominal he' (ha.document.symm ▸ hdefinition) rfl).isComposite
      rw [if_neg (by rw [hc]; exact Bool.false_ne_true), Runs.bind_apply,
        fillEntry_apply he' hcomposite] at hnext
      rcases hrun : fill typeAt id isRecord bases fields _ with ⟨_ | _, t⟩
      · rw [hrun] at hnext
        cases hnext
      · rw [hrun] at hnext
        cases hnext
        rfl

/-! ## The table registered and filled

The name leads to one shell, which the entries have for which it will do. -/

section

variable (h : DefinedOnce d m name c isRecord bases fields members)
  (hs : Ready d (IsNominalEntry d) shells) (hr : shells.room = none)
  (hentries : ∀ k < d.types.length, ∀ node, d.types[k]? = some node → node.isNominal = true →
    (shells.typeAt? k = some id ↔ Suits d k name (kindOf isRecord) size))

include hs hr in
theorem typeAt?_fillUpTo {k n : Nat} (he : shells.typeAt? k = some id) :
    (fillUpTo shells n).typeAt? k = some id :=
  ((fillUpTo_after (.inl trivial) hs (Room.allows_of_eq_none hr _) n).1.entry he).resolve_right
    fun hn => hn.1

include hs hr hentries in
/-- To fill the table gives no entry another type. -/
theorem typeAt?_filled_iff {k : Nat} {node : Node} (hk : d.types[k]? = some node)
    (hn : node.isNominal = true) :
    (fillUpTo shells d.types.length).typeAt? k = some id ↔
      Suits d k name (kindOf isRecord) size := by
  obtain ⟨x, hx⟩ := Option.ne_none_iff_exists'.mp (hs.set k ⟨node, hk, hn⟩)
  rw [typeAt?_fillUpTo hs hr hx, ← hx]
  exact hentries k (List.getElem?_eq_some_iff.mp hk).1 node hk hn

variable (listed : shells.IsListed) (hid : shells.program.registry.get? (.text name) = some id)
  (hshell : shells.program.arena.get? id =
    some (.named (.text name) (.composite (.empty (kindOf isRecord) size))))

include h hs hr hentries listed hid hshell

/-- A shell of the definition's size is the type of all entries of the name. -/
theorem DefinedOnce.unites (hsize : size = declaredBytes c.sizeBits)
    (uncancelled : (fillUpTo shells d.types.length).monitor.isCancelled = false) :
    Unites d m name c isRecord bases fields shells (fillUpTo shells d.types.length) id := by
  subst hsize
  have hm : m < d.types.length := (List.getElem?_eq_some_iff.mp h.definition).1
  have hv := (fillUpTo_after (.inl trivial) hs (Room.allows_of_eq_none hr _) d.types.length).1
  have he : shells.typeAt? m = some id :=
    (hentries m hm _ h.definition rfl).mpr ⟨_, h.declares, .inr rfl⟩
  have idle {k : Nat} (hk : k ≠ m) :=
    h.fillUpTo_succ hs listed.1 hr (hs.sound.program.lt_size hid) hentries (k := k) fun _ => hk
  constructor
  · intro k node hk hn
    rw [typeAt?_filled_iff hs hr hentries hk hn, h.suits_iff hk hn]
    exact and_iff_left fun _ => .inr rfl
  · exact hv.registry hid
  · obtain ⟨_, hg, rfl | ⟨_, _, made, heq, rfl, hkind, -⟩⟩ := hv.evolves hshell
    · exact ⟨_, hg, rfl⟩
    · cases heq
      exact ⟨made, hg, hkind⟩
  · exact (fillUpTo_kept (Nat.zero_le m) fun k _ hk => idle (Nat.ne_of_lt hk)).trans hshell
  · exact fillUpTo_definition h hs hr he uncancelled
  · exact fillUpTo_kept hm fun k hk _ => idle (Nat.ne_of_gt hk)

/-- A shell without a size is the type of the declarations only, if the definition has a size. -/
theorem DefinedOnce.divides (hzero : size = 0) (hsize : declaredBytes c.sizeBits ≠ 0)
    (hseat : ∃ n other, shells.typeAt? m = some other ∧
      shells.program.Seats name (kindOf isRecord) (declaredBytes c.sizeBits) n other) :
    Divides d m name isRecord (fillUpTo shells d.types.length) id := by
  subst hzero
  have hm : m < d.types.length := (List.getElem?_eq_some_iff.mp h.definition).1
  have hv := (fillUpTo_after (.inl trivial) hs (Room.allows_of_eq_none hr _) d.types.length).1
  have he : shells.typeAt? m ≠ some id := by
    rw [ne_eq, hentries m hm _ h.definition rfl, h.suits_iff h.definition rfl, or_self]
    exact fun hfits => hsize (hfits.2 rfl)
  constructor
  · intro k node hk hn
    rw [typeAt?_filled_iff hs hr hentries hk hn, h.suits_iff hk hn, or_self]
    exact and_congr_right fun _ => ⟨fun hfits hk => hsize (hfits hk), fun hne hk => absurd hk hne⟩
  · exact hv.registry hid
  · refine (fillUpTo_kept (Nat.zero_le _) fun k _ _ => h.fillUpTo_succ hs listed.1 hr
      (hs.sound.program.lt_size hid) hentries ?_).trans hshell
    rintro hk rfl
    exact he hk
  · obtain ⟨n, other, hother, hseat⟩ := hseat
    cases n with
    | zero => exact absurd (hother.trans (hseat.here.symm.trans hid)) he
    | succ n => exact ⟨n, other, typeAt?_fillUpTo hs hr hother, hv.registry hseat.here⟩

end

end

/-- Once the types are imported, the entries of a name with one definition have one composite, which
stands under the plain name and has the members with which the definition filled it, if the
definition is the first of them or has no size. If it has a size and a declaration stands before it,
only the declarations have that composite, which stays empty. No entry of another name may have got
a type under this one. -/
theorem importTypes_unites (h : Reached s)
    (hd : DefinedOnce s.document m name c isRecord bases fields members)
    (free : s.program.registry.get? (.text name) = none)
    (untaken : Untaken s.document name s.document.types.length (importTypes s).2)
    (uncancelled : (importTypes s).2.monitor.isCancelled = false) :
    ∃ shells filled id, registerTypes s = (.ok true, shells) ∧ importTypes s = (.ok (), filled) ∧
      fillUpTo shells s.document.types.length = filled ∧
      (ComesFirst s.document m name ∨ declaredBytes c.sizeBits = 0 →
        Unites s.document m name c isRecord bases fields shells filled id) ∧
      (¬ (ComesFirst s.document m name ∨ declaredBytes c.sizeBits = 0) →
        Divides s.document m name isRecord filled id) := by
  obtain ⟨head, size, hhead, hfirst, hsize, hzero⟩ := hd.exists_first
  obtain ⟨shells, hreg, ha, listed, hleads⟩ := registerTypes_leads h uncancelled
    (fun h _ hu => { h hu with }) (registerEntry_leads hhead hfirst)
    fun t hg _ => ⟨fun _ => by rw [hg.registry]; exact free, nofun⟩
  obtain ⟨_, hreg', -, -, hseats⟩ := registerTypes_leads
    (I := Seating s.document s.program.arena.size) h uncancelled (fun h _ => { h with })
    (registerEntry_seats _ _) (.of_gains h.sound.1 _)
  obtain ⟨-, rfl⟩ := Prod.mk.inj (hreg.symm.trans hreg')
  obtain ⟨hready, himport, hv⟩ := fillUpTo_of_registerTypes h hreg ha listed
  have hroom : shells.room = none := ha.room.trans h.sound.2
  rw [himport] at untaken uncancelled
  have hm : m < s.document.types.length := (List.getElem?_eq_some_iff.mp hd.definition).1
  have hlt : head < s.document.types.length :=
    Nat.lt_of_le_of_lt (hfirst hd.definition rfl hd.named) hm
  obtain ⟨id, hid, hshell, hentries⟩ := (hleads fun _ _ hk hn hnom hown _ hx he =>
    untaken hk hn hnom hown (hv.registry hx) (typeAt?_fillUpTo hready hroom he)).made hlt
  refine ⟨shells, _, id, hreg, himport, rfl, fun hfits => ?_, fun hfits => ?_⟩
  · exact hd.unites hready hroom hentries listed hid hshell (hsize hfits) uncancelled
  · obtain ⟨other, n, hother, hseat⟩ := hseats.seated hm hd.declares
    exact hd.divides hready hroom hentries listed hid hshell (hzero fun hf => hfits (.inl hf))
      (fun hnone => hfits (.inr hnone)) ⟨n, other, hother, hseat⟩

end

/-- A structure with a member, a type name for it, a declaration of it and another structure. -/
def opaqueDocument : Document where
  types :=
    [.composite { serial := 0, name := .text "S", sizeBits := 32 } true []
       [.builtIn { serial := 1, name := .text "x" } .signed32] [],
     .typeName { serial := 2, name := .text "s" } ⟨.text "S", -1, none⟩,
     .composite { serial := 3, name := .text "S" } true [] [] [],
     .composite { serial := 4, name := .text "T", sizeBits := 32 } true [] [] []]
  size := 5

def opaqueSession : Session := { document := opaqueDocument, program := {} }

theorem opaqueSession_isNew : opaqueSession.IsNew := by
  have name (t : String) : (Json.text t).IsName := .inr ⟨t, rfl⟩
  refine .of_document ⟨?_, nofun⟩
  simp only [opaqueDocument, List.forall_mem_cons]
  refine ⟨Node.wellTyped_composite (name _) _ ?_ _, Node.wellTyped_typeName (name _) (name _),
    Node.wellTyped_composite (name _) _ (by simp) _,
    Node.wellTyped_composite (name _) _ (by simp) _, nofun⟩
  simpa using Node.wellTyped_builtIn (name _) _

theorem opaqueDocument_definedOnce : DefinedOnce opaqueDocument 0 "S"
    { serial := 0, name := .text "S", sizeBits := 32 } true []
    [.builtIn { serial := 1, name := .text "x" } .signed32] [] where
  definition := rfl
  named := rfl
  declarations {k node} hk hn he hne := by
    match k, hk with
    | 0, _ => exact absurd rfl hne
    | 1, rfl => cases hn
    | 2, rfl => exact ⟨_, _, rfl, by decide⟩
    | 3, rfl => exact absurd (Json.text.inj he) (by decide)

theorem opaqueSession_untaken :
    Untaken opaqueDocument "S" opaqueDocument.types.length (importTypes opaqueSession).2 := by
  intro k node _ hk hn hne id hid
  have hown : (importTypes opaqueSession).2.program.registry.get? (.text "S") = some 0 := by
    decide +kernel
  obtain rfl : id = 0 := Option.some.inj (hid.symm.trans hown)
  match k, hk with
  | 0, rfl | 2, rfl => exact absurd rfl hne
  | 1, rfl => cases hn
  | 3, _ => decide +kernel

/-- A declaration of a structure, and its definition after it. -/
def forwardDocument : Document where
  types :=
    [.composite { serial := 0, name := .text "S" } true [] [] [],
     .composite { serial := 1, name := .text "S", sizeBits := 32 } true []
       [.builtIn { serial := 2, name := .text "x" } .signed32] []]
  size := 3

def forwardSession : Session := { document := forwardDocument, program := {} }

theorem forwardSession_isNew : forwardSession.IsNew := by
  have name (t : String) : (Json.text t).IsName := .inr ⟨t, rfl⟩
  refine .of_document ⟨?_, nofun⟩
  simp only [forwardDocument, List.forall_mem_cons]
  refine ⟨Node.wellTyped_composite (name _) _ (by simp) _,
    Node.wellTyped_composite (name _) _ ?_ _, nofun⟩
  simpa using Node.wellTyped_builtIn (name _) _

theorem forwardDocument_definedOnce : DefinedOnce forwardDocument 1 "S"
    { serial := 1, name := .text "S", sizeBits := 32 } true []
    [.builtIn { serial := 2, name := .text "x" } .signed32] [] where
  definition := rfl
  named := rfl
  declarations {k node} hk hn he hne := by
    match k, hk with
    | 0, rfl => exact ⟨_, _, rfl, by decide⟩
    | 1, _ => exact absurd rfl hne

theorem forwardSession_untaken :
    Untaken forwardDocument "S" forwardDocument.types.length (importTypes forwardSession).2 := by
  intro k node _ hk hn hne
  match k, hk with
  | 0, rfl | 1, rfl => exact absurd rfl hne

/-- The one structure with its definition first, the other with a declaration first. -/
theorem importTypes_unites_opaque :
    (∃ shells filled id, registerTypes opaqueSession = (.ok true, shells) ∧
      importTypes opaqueSession = (.ok (), filled) ∧
      fillUpTo shells opaqueSession.document.types.length = filled ∧
      Unites opaqueDocument 0 "S" { serial := 0, name := .text "S", sizeBits := 32 } true []
        [.builtIn { serial := 1, name := .text "x" } .signed32] shells filled id) ∧
    ∃ shells filled id, registerTypes forwardSession = (.ok true, shells) ∧
      importTypes forwardSession = (.ok (), filled) ∧
      fillUpTo shells forwardSession.document.types.length = filled ∧
      Divides forwardDocument 1 "S" true filled id := by
  constructor
  · obtain ⟨shells, filled, id, hreg, himport, hfill, hunites, -⟩ :=
      importTypes_unites (.new opaqueSession_isNew) opaqueDocument_definedOnce rfl
        opaqueSession_untaken (by decide +kernel)
    exact ⟨shells, filled, id, hreg, himport, hfill, hunites (.inl fun k _ _ _ _ => Nat.zero_le k)⟩
  · obtain ⟨shells, filled, id, hreg, himport, hfill, -, hdivides⟩ :=
      importTypes_unites (.new forwardSession_isNew) forwardDocument_definedOnce rfl
        forwardSession_untaken (by decide +kernel)
    refine ⟨shells, filled, id, hreg, himport, hfill, hdivides ?_⟩
    rintro (hf | hzero)
    · exact absurd (hf (j := 0) rfl rfl rfl) (by decide)
    · exact absurd hzero (by decide)

/-- Two structures of one name and different sizes, and a definition and a declaration of a
structure with the name that the second of these gets. -/
def renamedDocument : Document where
  types :=
    [.composite { serial := 0, name := .text "T", sizeBits := 32 } true [] [] [],
     .composite { serial := 1, name := .text "T", sizeBits := 64 } true [] [] [],
     .composite { serial := 2, name := .text "T.conflict", sizeBits := 32 } true []
       [.builtIn { serial := 3, name := .text "x" } .signed32] [],
     .composite { serial := 4, name := .text "T.conflict" } true [] [] []]
  size := 5

def renamedSession : Session := { document := renamedDocument, program := {} }

theorem renamedSession_isNew : renamedSession.IsNew := by
  have name (t : String) : (Json.text t).IsName := .inr ⟨t, rfl⟩
  refine .of_document ⟨?_, nofun⟩
  simp only [renamedDocument, List.forall_mem_cons]
  refine ⟨Node.wellTyped_composite (name _) _ (by simp) _,
    Node.wellTyped_composite (name _) _ (by simp) _, Node.wellTyped_composite (name _) _ ?_ _,
    Node.wellTyped_composite (name _) _ (by simp) _, nofun⟩
  simpa using Node.wellTyped_builtIn (name _) _

theorem renamedDocument_definedOnce : DefinedOnce renamedDocument 2 "T.conflict"
    { serial := 2, name := .text "T.conflict", sizeBits := 32 } true []
    [.builtIn { serial := 3, name := .text "x" } .signed32] [] where
  definition := rfl
  named := rfl
  declarations {k node} hk hn he hne := by
    match k, hk with
    | 0, rfl | 1, rfl => exact absurd (Json.text.inj he) (by decide)
    | 2, _ => exact absurd rfl hne
    | 3, rfl => exact ⟨_, _, rfl, by decide⟩

/-- Neither is a definition one with a declaration before it, nor with one behind it if its name is
taken by a conflict of others. -/
theorem importTypes_divides :
    (forwardSession.IsNew ∧ forwardSession.program = {} ∧
      DefinedOnce forwardSession.document 1 "S"
        { serial := 1, name := .text "S", sizeBits := 32 } true []
        [.builtIn { serial := 2, name := .text "x" } .signed32] [] ∧
      (importTypes forwardSession).2.monitor.isCancelled = false ∧
      (importTypes forwardSession).2.typeAt? 0 = some 0 ∧
      (importTypes forwardSession).2.typeAt? 1 = some 1 ∧
      (importTypes forwardSession).2.program.registry.get? (.text "S.conflict") = some 1) ∧
    (renamedSession.IsNew ∧ renamedSession.program = {} ∧
      DefinedOnce renamedSession.document 2 "T.conflict"
        { serial := 2, name := .text "T.conflict", sizeBits := 32 } true []
        [.builtIn { serial := 3, name := .text "x" } .signed32] [] ∧
      (importTypes renamedSession).2.monitor.isCancelled = false ∧
      (importTypes renamedSession).2.typeAt? 2 = some 2 ∧
      (importTypes renamedSession).2.typeAt? 3 = some 1 ∧
      (importTypes renamedSession).2.program.registry.get? (.text "T.conflict.conflict") =
        some 2) :=
  ⟨⟨forwardSession_isNew, rfl, forwardDocument_definedOnce, by decide +kernel, by decide +kernel,
      by decide +kernel, by decide +kernel⟩,
    renamedSession_isNew, rfl, renamedDocument_definedOnce, by decide +kernel, by decide +kernel,
      by decide +kernel, by decide +kernel⟩

end StabsImport.Import

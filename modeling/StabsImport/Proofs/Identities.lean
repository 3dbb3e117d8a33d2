import StabsImport.Proofs.Termination

/-!
# Which composites are one

A structure or union of the table is registered before it has members, so members do not count
when a registered composite is looked for that will do. What counts is the kind and the declared
size. From there on the entries that share a composite fill it one after another, and nothing else
does.
-/

namespace StabsImport

namespace Program

variable {p q : Program} {name : String} {kind : CompositeKind} {size : Int} {n : Nat} {id : TypeId}

/-- A composite of this kind and declared size stands under the first of its names in turn that
leads to one that will do. -/
structure Seats (p : Program) (name : String) (kind : CompositeKind) (size : Int) (n : Nat)
    (id : TypeId) : Prop where
  before : ∀ m < n, ∃ other, p.registry.get? (.text (nameInTurn name m)) = some other ∧
    ¬ p.arena.Admits kind size other
  here : p.registry.get? (.text (nameInTurn name n)) = some id
  admits : p.arena.Admits kind size id

theorem Seats.mono (h : p.Seats name kind size n id)
    (lt_size : ∀ {own x}, p.registry.get? own = some x → x < p.arena.size)
    (registry : ∀ {own x}, p.registry.get? own = some x → q.registry.get? own = some x)
    (kept : ∀ {x}, x < p.arena.size → q.arena.get? x = p.arena.get? x) :
    q.Seats name kind size n id where
  before m hm := by
    obtain ⟨other, ho, hadmits⟩ := h.before m hm
    refine ⟨other, registry ho, ?_⟩
    rw [Arena.admits_congr (kept (lt_size ho))]
    exact hadmits
  here := registry h.here
  admits := (Arena.admits_congr (kept (lt_size h.here))).mpr h.admits

end Program

namespace Import

open Document (Node Base)

variable {s t u : Session} {d : Document} {index start : Nat} {name : String} {id : TypeId}

/-- An entry is a structure or union of this name, kind and declared size. -/
def Declares (d : Document) (k : Nat) (name : String) (kind : CompositeKind) (size : Int) : Prop :=
  ∃ c isRecord bases fields members,
    d.types[k]? = some (.composite c isRecord bases fields members) ∧
    entryName (.composite c isRecord bases fields members) k = .text name ∧
    kind = kindOf isRecord ∧ size = declaredBytes c.sizeBits

theorem Declares.unique {k : Nat} {name name' : String} {kind kind' : CompositeKind}
    {size size' : Int} (h : Declares d k name kind size) (h' : Declares d k name' kind' size') :
    name = name' ∧ kind = kind' ∧ size = size' := by
  obtain ⟨c, isRecord, bases, fields, members, hk, hn, rfl, rfl⟩ := h
  obtain ⟨c', isRecord', bases', fields', members', hk', hn', rfl, rfl⟩ := h'
  rw [hk] at hk'
  cases hk'
  rw [hn] at hn'
  cases hn'
  exact ⟨rfl, rfl, rfl⟩

/-- Only a structure or union is one. -/
theorem not_declares {k : Nat} {node : Node} (hk : d.types[k]? = some node)
    (other : ∀ c isRecord bases fields members,
      node ≠ .composite c isRecord bases fields members) {kind : CompositeKind} {size : Int} :
    ¬ Declares d k name kind size := by
  rintro ⟨c, isRecord, bases, fields, members, hc, -⟩
  rw [hk] at hc
  exact other c isRecord bases fields members (Option.some.inj hc)

/-- No entry before this one has the type. -/
def Session.IsFirst (s : Session) (k : Nat) (id : TypeId) : Prop :=
  s.typeAt? k = some id ∧ ∀ j < k, s.typeAt? j ≠ some id

/-! ## Registering one type -/

/-- What a session is when one type was registered, or found: only that type is listed anew. -/
structure Lists (s t : Session) (shape : Shape) (id : TypeId) : Prop where
  kept : ∀ {x}, x < s.program.arena.size → t.program.arena.get? x = s.program.arena.get? x
  registry : ∀ {own x}, s.program.registry.get? own = some x →
    t.program.registry.get? own = some x
  listed : ∀ {own x}, t.program.registry.get? own = some x →
    s.program.registry.get? own = some x ∨
      x = id ∧ s.program.arena.size ≤ id ∧
        ∃ name, t.program.arena.get? id = some (.named name shape)
  entry : ∀ k, t.typeAt? k = s.typeAt? k

theorem Lists.of_push (s : Session) (o : TypeObject) (shape : Shape) (id : TypeId) :
    Lists s (s.push o) shape id where
  kept hx := Arena.get?_push_of_lt _ _ hx
  registry h := h
  listed h := .inl h
  entry _ := rfl

theorem Lists.of_register {own : String} (free : s.program.registry.get? (.text own) = none)
    (shape : Shape) : Lists s (s.register own shape) shape s.program.arena.size where
  kept hx := Arena.get?_push_of_lt _ _ hx
  registry h := Ledger.get?_put_of_free free h
  listed {k x} h := by
    rw [Session.register, Ledger.get?_put] at h
    split at h
    · cases h
      exact .inr ⟨rfl, Nat.le_refl _, _, Arena.get?_push_self _ _⟩
    · exact .inl h
  entry _ := rfl

theorem Session.Registers.lists {shape : Shape} (h : s.Registers name shape id t) :
    Lists s t shape id := by
  obtain ⟨n, -, ⟨-, -, rfl⟩ | ⟨free, rfl, rfl⟩⟩ := h
  · exact .of_push s _ shape id
  · exact .of_register free shape

theorem Lists.before_gains {shape : Shape} (hg : Gains s t)
    (h : Lists t u shape id) : Lists s u shape id where
  kept {x} hx := by
    have hx' := hg.kept (Array.getElem?_eq_getElem hx)
    rw [h.kept (Arena.lt_size_of_get? hx'), hx']
    exact (Array.getElem?_eq_getElem hx).symm
  registry hr := h.registry (by rw [hg.registry]; exact hr)
  listed {own x} hr := by
    rcases h.listed hr with hr | ⟨rfl, hle, hn⟩
    · rw [hg.registry] at hr
      exact .inl hr
    · exact .inr ⟨rfl, Nat.le_trans hg.size_le hle, hn⟩
  entry k := (h.entry k).trans (hg.entry k)

/-- A shell that is registered, or for which a composite is found, has its seat. -/
theorem Session.Registers.seats (hs : s.Sound) {kind : CompositeKind} {size : Int}
    (h : s.Registers name (.composite (.empty kind size)) id t) :
    ∃ n, t.program.Seats name kind size n id := by
  have hl := h.lists
  obtain ⟨n, barred, h⟩ := h
  let pushed := s.push (.named (.text name) (.composite (.empty kind size)))
  have hshell : pushed.program.arena.composite? s.program.arena.size = some (.empty kind size) :=
    Arena.composite?_eq_some.mpr ⟨_, get?_push s _⟩
  have same {x : TypeId} (hx : x < s.program.arena.size) :
      pushed.program.arena.get? x = t.program.arena.get? x := by
    rw [hl.kept hx]
    exact Arena.get?_push_of_lt _ _ hx
  refine ⟨n, fun m hm => ?_, ?_, ?_⟩
  · obtain ⟨other, ho, hr⟩ := barred m hm
    refine ⟨other, hl.registry ho, fun ha => ?_⟩
    rw [← Arena.admits_congr (same (hs.program.lt_size ho)), ← Arena.canReuse_shell hshell, hr]
      at ha
    cases ha
  · rcases h with ⟨ho, -, rfl⟩ | ⟨free, rfl, rfl⟩
    · exact ho
    · exact Ledger.get?_put_self _ _ _
  · rcases h with ⟨ho, hr, rfl⟩ | ⟨free, rfl, rfl⟩
    · exact (Arena.canReuse_shell hshell).mp hr
    · exact ⟨_, Arena.composite?_eq_some.mpr ⟨_, Arena.get?_push_self _ _⟩, rfl, .inr rfl⟩

/-! ## Registering the table -/

/-- The composites of the entries before one: each has its seat, and those that were not there at
the start were made, without members, for the first entry that has them. -/
structure Seating (d : Document) (start index : Nat) (s : Session) : Prop where
  seated : ∀ {k name kind size}, k < index → Declares d k name kind size →
    ∃ id n, s.typeAt? k = some id ∧ s.program.Seats name kind size n id
  made : ∀ {own id c}, s.program.registry.get? own = some id → start ≤ id →
    s.program.arena.composite? id = some c →
    ∃ k name kind size, k < index ∧ Declares d k name kind size ∧ s.IsFirst k id ∧
      c = .empty kind size

theorem Seating.of_gains (hs : s.Sound) (d : Document) (t : Session) (hg : Gains s t) :
    Seating d s.program.arena.size 0 t := by
  refine ⟨nofun, fun hr hle _ => absurd hle (Nat.not_le.mpr ?_)⟩
  rw [hg.registry] at hr
  exact hs.program.lt_size hr

theorem Seating.step (h : Seating d start index s) (hs : s.Sound) {shape : Shape}
    (hl : Lists s t shape id) (hin : index < t.table.size)
    (seat : ∀ {name kind size}, Declares d index name kind size →
      ∃ n, t.program.Seats name kind size n id)
    (shell : ∀ {c}, shape = .composite c →
      ∃ name kind size, Declares d index name kind size ∧ c = .empty kind size) :
    Seating d start (index + 1) { t with table := t.table.setIfInBounds index (some id) } := by
  let u : Session := { t with table := t.table.setIfInBounds index (some id) }
  have hset : u.typeAt? index = some id := typeAt?_setEntry id hin
  have other {k : Nat} (hk : k < index) : u.typeAt? k = s.typeAt? k := by
    rw [Session.typeAt?_set, if_neg (by omega), hl.entry]
  have first {k : Nat} {x : TypeId} (hk : k < index) (hf : s.IsFirst k x) : u.IsFirst k x :=
    ⟨(other hk).trans hf.1, fun j hj => by
      rw [other (by omega)]
      exact hf.2 j hj⟩
  constructor
  · intro k name kind size hk hd
    rcases Nat.lt_succ_iff_lt_or_eq.mp hk with hk | rfl
    · obtain ⟨x, n, hx, hseat⟩ := h.seated hk hd
      exact ⟨x, n, (other hk).trans hx, hseat.mono hs.program.lt_size hl.registry hl.kept⟩
    · obtain ⟨n, hseat⟩ := seat hd
      exact ⟨id, n, hset, hseat⟩
  · intro own x c hr hstart hc
    rcases hl.listed hr with hr | ⟨rfl, hle, own, hg⟩
    · rw [Arena.composite?, hl.kept (hs.program.lt_size hr)] at hc
      obtain ⟨k, name, kind, size, hk, hd, hf, he⟩ := h.made hr hstart hc
      exact ⟨k, name, kind, size, Nat.lt_succ_of_lt hk, hd, first hk hf, he⟩
    · obtain ⟨own', hc⟩ := Arena.composite?_eq_some.mp hc
      rw [hg] at hc
      cases hc
      obtain ⟨name, kind, size, hd, he⟩ := shell rfl
      refine ⟨index, name, kind, size, Nat.lt_succ_self _, hd, ⟨hset, fun j hj he => ?_⟩, he⟩
      rw [other hj] at he
      exact absurd (hs.entry_lt he) (Nat.not_lt.mpr hle)

theorem Seating.skip (h : Seating d start index s)
    (hd : ∀ {name kind size}, ¬ Declares d index name kind size) :
    Seating d start (index + 1) s where
  seated {k _ _ _} hk hk' := by
    rcases Nat.lt_succ_iff_lt_or_eq.mp hk with hk | rfl
    · exact h.seated hk hk'
    · exact absurd hk' hd
  made hr hstart hc := by
    obtain ⟨k, name, kind, size, hk, hd, hf, he⟩ := h.made hr hstart hc
    exact ⟨k, name, kind, size, Nat.lt_succ_of_lt hk, hd, hf, he⟩

theorem registerEntry_seats (d : Document) (start : TypeId) :
    RegistersEach d (Seating d start) := by
  intro s hs hd hp hr index node hnode
  have hnode' : s.document.types[index]? = some node := hd ▸ hnode
  have ht : node.WellTyped := hs.typed.types node (List.mem_of_getElem? hnode')
  obtain ⟨name, hname⟩ := entryName_text ht.typed.name index
  cases node with
  | enumeration c constants =>
      simp only [registerEntry, hname]
      refine (register_yields hp trivial (fun h => h) hnode'
        (hs.addEnumeration hr name c ht.typed.2) _).mono ?_ fun _ _ _ h => h
      rintro _ _ - ⟨hset, id, t, ⟨u, hg, hnew⟩, hin, rfl⟩
      refine ⟨fun _ => hset, fun h => h.step hs (hnew.lists.before_gains hg) hin ?_ ?_⟩
      · exact fun hd => absurd hd (not_declares hnode fun _ _ _ _ _ h => by cases h)
      · intro made he
        cases he
  | composite c isRecord bases fields members =>
      have declared : Declares d index name (kindOf isRecord) (declaredBytes c.sizeBits) :=
        ⟨c, isRecord, bases, fields, members, hnode, hname, rfl, rfl⟩
      simp only [registerEntry, hname]
      refine (register_yields hp trivial (fun h => h) hnode'
        (hs.addShell (Room.allows_of_le hr (by decide)) c isRecord bases fields members name)
        _).mono ?_ fun _ _ _ h => h
      rintro _ _ - ⟨hset, id, t, hnew, hin, rfl⟩
      refine ⟨fun _ => hset, fun h => h.step hs hnew.lists hin ?_ ?_⟩
      · intro own kind size hd
        obtain ⟨rfl, rfl, rfl⟩ := hd.unique declared
        exact hnew.seats hs
      · intro made he
        cases he
        exact ⟨name, _, _, declared, rfl⟩
  | _ =>
      exact .pure hs ⟨fun hn => absurd hn Bool.false_ne_true, fun h =>
        h.skip (not_declares hnode fun _ _ _ _ _ h => by cases h)⟩

/-! ## Filling one entry after the other -/

theorem fillFrom_cons (index : Nat) (node : Node) (rest : List Node) (s : Session) :
    fillFrom index (node :: rest) s =
      if s.monitor.check.1 then (.ok (), { s with monitor := s.monitor.check.2 })
      else (do fillEntry index node; fillFrom (index + 1) rest : ImportM Unit)
        { s with monitor := s.monitor.check.2 } := by
  show (if s.monitor.check.1 then pure () else do
      fillEntry index node
      fillFrom (index + 1) rest : ImportM Unit) { s with monitor := s.monitor.check.2 } = _
  split <;> rfl

/-- Work that was found cancelled stays so, and nothing is filled from there on. -/
theorem fillFrom_cancelled (h : s.monitor.isCancelled = true) (index : Nat) (nodes : List Node) :
    fillFrom index nodes s = (.ok (), s) := by
  cases nodes with
  | nil => rfl
  | cons node rest =>
      have hc : s.monitor.check = (true, s.monitor) := by rw [Monitor.check, if_pos h]
      rw [fillFrom_cons, hc, if_pos rfl]

theorem fillFrom_append (index : Nat) (nodes more : List Node) :
    fillFrom index (nodes ++ more) =
      (do fillFrom index nodes; fillFrom (index + nodes.length) more) := by
  induction nodes generalizing index with
  | nil => rfl
  | cons node rest ih =>
      funext s
      have hlen : index + (node :: rest).length = index + 1 + rest.length := by
        rw [List.length_cons]
        omega
      rw [List.cons_append, fillFrom_cons, ih, hlen]
      conv => rhs; rw [Runs.bind_apply, fillFrom_cons]
      cases hc : s.monitor.check.1 with
      | true =>
          have hcancelled : s.monitor.check.2.isCancelled = true := by
            rw [Monitor.check_isCancelled, hc]
          exact (fillFrom_cancelled hcancelled _ more).symm
      | false =>
          simp only [Bool.false_eq_true, if_false, ← bind_assoc]
          exact Runs.bind_apply _ _ _

/-- To fill one entry changes its composite only. -/
theorem fillOne_frame {may : TypeId → Prop} {index : Nat} {node : Node}
    (h : node.isNominal = true → ∀ id, s.typeAt? index = some id → may id) :
    Runs (fillFrom index [node]) s (fun _ s' => GuardedFrame may s s')
      fun _ s' => GuardedFrame may s s' := by
  let checked : Session := { s with monitor := s.monitor.check.2 }
  have hcheck : Frame may s checked := { Frame.refl s with }
  have heq := fillFrom_cons index node [] s
  by_cases hc : s.monitor.check.1 = true
  · rw [if_pos hc] at heq
    exact Runs.of_eq heq fun _ => hcheck
  · rw [if_neg hc] at heq
    have onward {t : Session} (ht : GuardedFrame may checked t) : GuardedFrame may s t :=
      fun hg => hcheck.trans (ht (hg.after hcheck))
    rw [Runs, heq]
    show Runs (do fillEntry index node; fillFrom (index + 1) []) checked _ _
    rw [Runs.bind_iff]
    exact Runs.mono (fillEntry_frame h) (fun _ _ ht => onward ht) fun _ _ ht => onward ht

/-- The session in which so many entries were filled. -/
def fillUpTo (s : Session) (k : Nat) : Session := (fillFrom 0 (s.document.types.take k) s).2

theorem fillUpTo_zero (s : Session) : fillUpTo s 0 = s := rfl

/-- To fill one entry more is to fill that entry. -/
theorem fillFrom_take_succ {k : Nat} {node : Node} {u : Unit}
    (hu : fillFrom 0 (s.document.types.take k) s = (.ok u, fillUpTo s k))
    (hk : s.document.types[k]? = some node) :
    fillFrom 0 (s.document.types.take (k + 1)) s = fillFrom k [node] (fillUpTo s k) := by
  obtain ⟨hin, rfl⟩ := List.getElem?_eq_some_iff.mp hk
  have hlen : (s.document.types.take k).length = k := List.length_take_of_le (Nat.le_of_lt hin)
  rw [← List.take_append_getElem hin, fillFrom_append, Runs.bind_apply, hu, hlen, Nat.zero_add]

variable {isSet : Nat → Prop} {C : Prop}

theorem fillUpTo_after (hl : Settles d isSet C) (hs : Ready d isSet s)
    (hr : s.room.allows (fillNeed d) = true) (k : Nat) :
    After { cuts := C } s (fillUpTo s k) ∧
      ∃ u, fillFrom 0 (s.document.types.take k) s = (.ok u, fillUpTo s k) := by
  have hsteps : FillsEach d isSet C fun _ _ => True :=
    fun t ht hr _ _ hn => (fillEntry_yields 0 hl ht hr hn).mono (fun _ _ _ _ _ h => h)
      fun _ _ _ h => h
  have hnodes : StandFrom d 0 (s.document.types.take k) := hs.document ▸ .take _ k
  obtain ⟨u, t, ht, ha, -⟩ :=
    (fillFrom_yields (fun h _ => h) hsteps hs hr hnodes).exists_ok
  rw [fillUpTo, ht]
  exact ⟨ha, u, rfl⟩

/-- To fill one entry more changes no composite but its own. -/
theorem fillUpTo_apart (hs : Ready d (IsNominalEntry d) s) (hp : s.isPrepared = true)
    (hr : s.room.allows (fillNeed d) = true) (k : Nat) {x : TypeId}
    (hx : x < s.program.arena.size) (hk : s.typeAt? k ≠ some x) :
    (fillUpTo s (k + 1)).program.arena.get? x = (fillUpTo s k).program.arena.get? x := by
  have hl : Settles d (IsNominalEntry d) True := .inl trivial
  by_cases hin : k < s.document.types.length
  · obtain ⟨ha, u, hu⟩ := fillUpTo_after hl hs hr k
    have hguard : Guarded (s.typeAt? k = some ·) (fillUpTo s k) := by
      refine .inr ⟨ha.prepared hp, fun j hj he => ?_⟩
      rw [ha.document, hs.document] at hj
      exact hs.set j hj (ha.unset he)
    have hown (hn : s.document.types[k].isNominal = true) (id : TypeId)
        (he : (fillUpTo s k).typeAt? k = some id) : s.typeAt? k = some id := by
      have hentry : IsNominalEntry d k := by
        refine ⟨s.document.types[k], ?_, hn⟩
        rw [← hs.document]
        exact List.getElem?_eq_getElem hin
      obtain ⟨y, hset⟩ := Option.ne_none_iff_exists'.mp (hs.set k hentry)
      have hkept := (ha.entry hset).resolve_right fun h => h.1
      rw [hkept] at he
      exact hset.trans he
    have hone := fillOne_frame hown
    have hnext := fillFrom_take_succ hu (List.getElem?_eq_getElem hin)
    have hframe : Frame (s.typeAt? k = some ·) (fillUpTo s k) (fillUpTo s (k + 1)) := by
      rw [Runs, ← hnext] at hone
      conv => rhs; rw [fillUpTo]
      rcases hr : fillFrom 0 (s.document.types.take (k + 1)) s with ⟨_ | _, t⟩
      · rw [hr] at hone
        exact hone hguard
      · rw [hr] at hone
        exact hone hguard
    exact hframe.kept (ha.lt_size hx) hk
  · rw [fillUpTo, fillUpTo, List.take_of_length_le (by omega), List.take_of_length_le (by omega)]

/-- What no entry has for its type is not changed by any fill. -/
theorem fillUpTo_untouched (hs : Ready d (IsNominalEntry d) s) (hp : s.isPrepared = true)
    (hr : s.room.allows (fillNeed d) = true) {x : TypeId} (hx : x < s.program.arena.size)
    (unused : ∀ k, s.typeAt? k ≠ some x) (k : Nat) :
    (fillUpTo s k).program.arena.get? x = s.program.arena.get? x := by
  induction k with
  | zero => rw [fillUpTo_zero]
  | succ k ih => exact (fillUpTo_apart hs hp hr k hx (unused k)).trans ih

/-! ## The stage of types -/

/-- To register the table changes no type that was there before. -/
theorem registerTypes_frame {may : TypeId → Prop} : Preserves (Frame may) registerTypes :=
  prepare_quiet.frame.bind fun _ => Preserves.get fun _ => registerFrom_frame 0 _

/-- Every structure, union and enumeration of the table has its type. -/
def Session.IsListed (s : Session) : Prop :=
  s.isPrepared = true ∧ ∀ k, IsNominalEntry s.document k → s.typeAt? k ≠ none

/-- What registration leads to if no check finds it cancelled. -/
theorem registerTypes_leads (h : Reached s)
    (uncancelled : (importTypes s).2.monitor.isCancelled = false) {I : Nat → Session → Prop}
    (ignores : IgnoresMonitor I) (step : RegistersEach s.document I)
    (start : ∀ t, Gains s t → I 0 t) :
    ∃ shells, registerTypes s = (.ok true, shells) ∧ After registration s shells ∧
      shells.IsListed ∧ I s.document.types.length shells := by
  obtain ⟨hs, hr⟩ := h.sound
  obtain ⟨done, shells, hreg, ha, hdone⟩ :=
    (registerTypes_yields ignores step hs (Room.allows_of_eq_none hr _)).exists_ok
  cases done with
  | false =>
      simp only [Bool.false_eq_true, if_false] at hdone
      rw [importTypes_apply, hreg] at uncancelled
      rw [hdone] at uncancelled
      cases uncancelled
  | true =>
      simp only [if_true] at hdone
      obtain ⟨hset, hI, hprepared⟩ := hdone
      refine ⟨shells, hreg, ha, ⟨hprepared, fun k hk => hset k ?_⟩, hI start⟩
      rw [ha.document] at hk
      exact hk

/-- Filling ends once registration is done. -/
theorem fillUpTo_of_registerTypes (h : Reached s) {shells : Session}
    (hreg : registerTypes s = (.ok true, shells)) (ha : After registration s shells)
    (listed : shells.IsListed) :
    Ready s.document (IsNominalEntry s.document) shells ∧
      importTypes s = (.ok (), fillUpTo shells s.document.types.length) ∧
      After { cuts := True } shells (fillUpTo shells s.document.types.length) := by
  have hset : ∀ k, IsNominalEntry s.document k → shells.typeAt? k ≠ none := by
    rw [← ha.document]
    exact listed.2
  have hready : Ready s.document (IsNominalEntry s.document) shells := ⟨ha.sound, ha.document, hset⟩
  have hroom : shells.room = none := ha.room.trans h.sound.2
  obtain ⟨hv, _, hfill⟩ := fillUpTo_after (.inl trivial) hready (Room.allows_of_eq_none hroom _)
    s.document.types.length
  rw [ha.document, List.take_length] at hfill
  refine ⟨hready, ?_, hv⟩
  rw [importTypes_apply, hreg]
  exact hfill

/-- What becomes of the structures and unions of the table: `shells` is the session in which all are
registered, `filled` the one in which all are filled. -/
structure Identifies (s shells filled : Session) : Prop where
  /-- An entry has the composite that stands under the first of its names in turn that leads to one
  of its kind and declared size. -/
  seated : ∀ {k name kind size}, Declares s.document k name kind size →
    ∃ id n c, shells.typeAt? k = some id ∧ shells.program.Seats name kind size n id ∧
      filled.typeAt? k = some id ∧
      filled.program.registry.get? (.text (Program.nameInTurn name n)) = some id ∧
      filled.program.arena.get? id =
        some (.named (.text (Program.nameInTurn name n)) (.composite c)) ∧ c.kind = kind
  /-- A composite that was not in the program before was made, without members, for the first entry
  that has it. -/
  made : ∀ {k name kind size id}, Declares s.document k name kind size →
    shells.typeAt? k = some id → s.program.arena.size ≤ id →
    ∃ j ≤ k, ∃ own kind size, Declares s.document j own kind size ∧ shells.IsFirst j id ∧
      shells.program.arena.composite? id = some (.empty kind size)
  /-- What was in the program before is as it was. -/
  found : ∀ {id}, id < s.program.arena.size →
    shells.program.arena.get? id = s.program.arena.get? id
  /-- To fill one entry more changes no composite but its own. -/
  apart : ∀ k {id}, id < shells.program.arena.size → shells.typeAt? k ≠ some id →
    (fillUpTo shells (k + 1)).program.arena.get? id = (fillUpTo shells k).program.arena.get? id
  /-- What no entry has for its type is not changed by any. -/
  untouched : ∀ {id}, id < shells.program.arena.size → (∀ k, shells.typeAt? k ≠ some id) →
    filled.program.arena.get? id = shells.program.arena.get? id

/-- Once the types are imported, an entry shares a composite with another, or with the program, only
if their kinds are the same and it declares no size or the size of that composite. Every other
composite of its name has a name of its own, and is filled by none but the entries that have it. -/
theorem importTypes_identifies (h : Reached s)
    (uncancelled : (importTypes s).2.monitor.isCancelled = false) :
    ∃ shells filled, registerTypes s = (.ok true, shells) ∧ importTypes s = (.ok (), filled) ∧
      fillUpTo shells s.document.types.length = filled ∧ Identifies s shells filled := by
  obtain ⟨u, hreg, ha, listed, hseats⟩ := registerTypes_leads
    (I := Seating s.document s.program.arena.size) h uncancelled (fun h _ => { h with })
    (registerEntry_seats _ _) (Seating.of_gains h.sound.1 _)
  obtain ⟨hready, himport, hv⟩ := fillUpTo_of_registerTypes h hreg ha listed
  have hroom : u.room.allows (fillNeed s.document) = true :=
    Room.allows_of_eq_none (ha.room.trans h.sound.2) _
  have hfound : Frame (fun _ => False) s u := by
    have hf : Frame (fun _ => False) s (registerTypes s).2 :=
      registerTypes_frame.apply s
    rw [hreg] at hf
    exact hf
  refine ⟨u, fillUpTo u s.document.types.length, hreg, himport, rfl, ?_⟩
  constructor
  · intro k name kind size hd
    have hk : k < s.document.types.length := by
      obtain ⟨_, _, _, _, _, hk, -⟩ := hd
      exact (List.getElem?_eq_some_iff.mp hk).1
    obtain ⟨id, n, he, hseat⟩ := hseats.seated hk hd
    obtain ⟨c, hc, hkind, -⟩ := hseat.admits
    obtain ⟨own, hg⟩ := Arena.composite?_eq_some.mp hc
    obtain rfl := ha.sound.program.own hseat.here hg
    obtain ⟨_, hg', rfl | ⟨_, _, c', heq, rfl, hkind', -⟩⟩ := hv.evolves hg
    · exact ⟨id, n, c, he, hseat, (hv.entry he).resolve_right fun h => h.1,
        hv.registry hseat.here, hg', hkind⟩
    · cases heq
      exact ⟨id, n, c', he, hseat, (hv.entry he).resolve_right fun h => h.1,
        hv.registry hseat.here, hg', hkind'.trans hkind⟩
  · intro k name kind size id hd he hle
    have hk : k < s.document.types.length := by
      obtain ⟨_, _, _, _, _, hk, -⟩ := hd
      exact (List.getElem?_eq_some_iff.mp hk).1
    obtain ⟨id', n, he', hseat⟩ := hseats.seated hk hd
    obtain rfl : id = id' := Option.some.inj (he.symm.trans he')
    obtain ⟨c, hc, -⟩ := hseat.admits
    obtain ⟨j, own, kind, size, -, hj, hfirst, rfl⟩ := hseats.made hseat.here hle hc
    exact ⟨j, Nat.le_of_not_lt fun hlt => hfirst.2 k hlt he, own, kind, size, hj, hfirst, hc⟩
  · exact fun hx => hfound.kept hx nofun
  · exact fun k _ hx hk => fillUpTo_apart hready listed.1 hroom k hx hk
  · exact fun hx unused => fillUpTo_untouched hready listed.1 hroom hx unused _

/-- Two structures of one name and size, with a member each in different places, and a larger one
of that name. -/
def namesakeDocument : Document where
  types :=
    [.composite { serial := 0, name := .text "S", sizeBits := 32 } true []
       [.builtIn { serial := 1, name := .text "a", relativeOffset := 0 } .signed8] [],
     .composite { serial := 2, name := .text "S", sizeBits := 32 } true []
       [.builtIn { serial := 3, name := .text "b", relativeOffset := 2 } .signed8] [],
     .composite { serial := 4, name := .text "S", sizeBits := 64 } true [] [] []]
  size := 5

def namesakeSession : Session := { document := namesakeDocument, program := {} }

theorem namesakeSession_isNew : namesakeSession.IsNew := by
  have name (t : String) : (Json.text t).IsName := .inr ⟨t, rfl⟩
  refine .of_document ⟨?_, nofun⟩
  simp only [namesakeDocument, List.forall_mem_cons]
  refine ⟨Node.wellTyped_composite (name _) _ ?_ _, Node.wellTyped_composite (name _) _ ?_ _,
    Node.wellTyped_composite (name _) _ (by simp) _, nofun⟩
  · simpa using Node.wellTyped_builtIn (name _) _
  · simpa using Node.wellTyped_builtIn (name _) _

theorem importTypes_identifies_namesakes :
    ∃ shells filled, registerTypes namesakeSession = (.ok true, shells) ∧
      importTypes namesakeSession = (.ok (), filled) ∧
      fillUpTo shells namesakeSession.document.types.length = filled ∧
      Identifies namesakeSession shells filled :=
  importTypes_identifies (.new namesakeSession_isNew) (by decide +kernel)

/-- Where the members of an entry's composite start, and their names. -/
def Session.layoutOf (s : Session) (k : Nat) : List (Int × Json) :=
  match (s.typeAt? k).bind s.program.arena.composite? with
  | some c => c.components.map fun m => (m.offset, m.name)
  | none => []

/-- Two structures that are not the same become one, with the members of both. -/
theorem importTypes_mixes :
    (importTypes namesakeSession).1 = .ok () ∧
      (importTypes namesakeSession).2.typeAt? 0 = some 0 ∧
      (importTypes namesakeSession).2.typeAt? 1 = some 0 ∧
      (importTypes namesakeSession).2.layoutOf 1 = [(0, .text "a"), (2, .text "b")] ∧
      (importTypes { namesakeSession with
        document.types := namesakeDocument.types.drop 1 }).2.layoutOf 0 = [(2, .text "b")] := by
  decide +kernel

end Import

end StabsImport

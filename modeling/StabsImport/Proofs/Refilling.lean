import StabsImport.Proofs.Overwriting
import StabsImport.Proofs.Structures

/-!
# Filling again

What is left of the components put into a composite is what nothing later displaced, and as each
displaces at least itself, the same calls again leave the same components. For a union this is the
list itself; the list of a structure is known by what is in it, as no two components of a structure
have the same place in its order. Main statement: `filling_again`.
-/

namespace StabsImport

theorem le_foldl_max (ns : List Int) (n : Int) : n ≤ ns.foldl max n := by
  induction ns generalizing n with
  | nil => exact Int.le_refl n
  | cons m ns ih => exact Int.le_trans (Int.le_max_left n m) (ih (max n m))

/-- A maximum that was taken is not exceeded the second time. -/
theorem foldl_max_again (ns : List Int) (n : Int) :
    ns.foldl max (ns.foldl max n) = ns.foldl max n := by
  induction ns generalizing n with
  | nil => rfl
  | cons m ns ih =>
      have reached : m ≤ ns.foldl max (max n m) :=
        Int.le_trans (Int.le_max_right n m) (le_foldl_max ns _)
      simp only [List.foldl_cons]
      rw [max_eq_left reached, ih]

theorem perm_foldl_layOver {α : Type} {meets : α → α → Bool} {l l' : List α} (h : l.Perm l')
    (as : List α) : (as.foldl (layOver meets) l).Perm (as.foldl (layOver meets) l') := by
  rw [foldl_layOver, foldl_layOver]
  exact (h.filter _).append_right _

/-! ## The order of a structure -/

namespace Component

variable {c d e : Component}

/-- By offset, then by the bit where it starts. A member and a bit field may start at the same bit,
and then the member stands first. -/
def StandsBefore (c d : Component) : Prop :=
  c.offset < d.offset ∨ c.offset = d.offset ∧ (c.bitOffset < d.bitOffset ∨
    c.bitOffset = d.bitOffset ∧ c.isBitField = false ∧ d.isBitField = true)

theorem StandsBefore.trans (h : c.StandsBefore d) (h' : d.StandsBefore e) : c.StandsBefore e := by
  unfold StandsBefore at h h' ⊢
  grind

theorem StandsBefore.asymm (h : c.StandsBefore d) : ¬ d.StandsBefore c := by
  unfold StandsBefore at h ⊢
  grind

theorem standsBefore_of_comesBefore (h : Composite.comesBefore c d = true) : c.StandsBefore d := by
  simp only [Composite.comesBefore, Bool.or_eq_true, Bool.and_eq_true, decide_eq_true_eq,
    beq_iff_eq] at h
  unfold StandsBefore
  omega

/-- A member displaces what shares a byte with it, a bit field the bit field that starts at the
same bit. -/
def displaces (c d : Component) : Bool :=
  if c.isBitField then Composite.startsAtBit c.offset c.bitOffset d
  else Composite.overlaps c.offset c.length d

theorem displaces_self (h : 0 < c.length) : c.displaces c = true := by
  unfold displaces
  split
  · next bits => simp [Composite.startsAtBit, bits]
  · simp only [Composite.overlaps, Bool.not_eq_eq_eq_not, Bool.not_true, Bool.or_eq_false_iff,
      decide_eq_false_iff_not]
    unfold stop
    omega

/-- What is not displaced has a place of its own: only a member can start at the bit where a new
bit field starts, and nothing where a new member starts. -/
theorem standsBefore_of_not_displaces (hc : 0 < c.length) (hd : 0 < d.length)
    (apart : c.displaces d = false) (h : ¬ Composite.comesBefore c d = true) :
    d.StandsBefore c := by
  simp only [Composite.comesBefore, Bool.or_eq_true, Bool.and_eq_true, decide_eq_true_eq,
    beq_iff_eq] at h
  unfold displaces at apart
  unfold StandsBefore
  split at apart
  · next bits =>
      simp only [Composite.startsAtBit, Bool.and_eq_false_iff, beq_eq_false_iff_ne] at apart
      grind
  · simp only [Composite.overlaps, Bool.not_eq_false', Bool.or_eq_true, decide_eq_true_eq] at apart
    unfold stop at apart
    omega

end Component

namespace Composite

open scoped List

open Component (StandsBefore displaces)

variable {s : Composite} {c : Component} {cs : List Component}

/-- A component is put into a structure. -/
def settle (s : Composite) (c : Component) : Composite :=
  { s with components := s.components.filter (!c.displaces ·) }.insert c

def settleAll (s : Composite) (cs : List Component) : Composite := cs.foldl settle s

theorem settleAll_perm (s : Composite) (cs : List Component) :
    (s.settleAll cs).components.Perm (cs.foldl (layOver displaces) s.components) := by
  induction cs generalizing s with
  | nil => exact .refl _
  | cons c cs ih =>
      have first : (s.settle c).components.Perm (layOver displaces s.components c) :=
        (insertSorted_perm c _).trans (List.perm_append_singleton c _).symm
      exact (ih (s.settle c)).trans (perm_foldl_layOver first cs)

theorem size_settleAll (s : Composite) (cs : List Component) :
    (s.settleAll cs).size = (cs.map Component.stop).foldl max s.size := by
  induction cs generalizing s with
  | nil => rfl
  | cons c cs ih => exact ih (s.settle c)

theorem kind_settleAll (s : Composite) (cs : List Component) :
    (s.settleAll cs).kind = s.kind := by
  induction cs generalizing s with
  | nil => rfl
  | cons c cs ih => exact ih (s.settle c)

/-- The components of a structure take up room, and each has its place in the order. -/
structure Ranked (s : Composite) : Prop where
  ranks : s.components.Pairwise StandsBefore
  long : ∀ c ∈ s.components, 0 < c.length

theorem ranked_empty (kind : CompositeKind) (size : Int) : (empty kind size).Ranked :=
  ⟨.nil, nofun⟩

theorem Ranked.settle (h : s.Ranked) (long : 0 < c.length) : (s.settle c).Ranked where
  ranks := by
    refine pairwise_insertSorted StandsBefore.trans Component.standsBefore_of_comesBefore
      (fun d hd => ?_) (h.ranks.sublist List.filter_sublist)
    obtain ⟨hmem, kept⟩ := List.mem_filter.mp hd
    exact Component.standsBefore_of_not_displaces long (h.long d hmem) (by simpa using kept)
  long d hd := by
    rcases mem_insertSorted hd with rfl | hd
    · exact long
    · exact h.long d (List.mem_filter.mp hd).1

theorem Ranked.settleAll (h : s.Ranked) (long : ∀ c ∈ cs, 0 < c.length) :
    (s.settleAll cs).Ranked := by
  induction cs generalizing s with
  | nil => exact h
  | cons c cs ih =>
      exact ih (h.settle (long c List.mem_cons_self)) fun d hd => long d (List.mem_cons_of_mem c hd)

/-- The list of a structure is known by what is in it. -/
theorem Ranked.components_eq {t : Composite} (hs : s.Ranked) (ht : t.Ranked)
    (same : s.components.Perm t.components) : s.components = t.components :=
  same.eq_of_pairwise (fun _ _ _ _ hab hba => absurd hba hab.asymm) hs.ranks ht.ranks

theorem settleAll_again (h : s.Ranked) (long : ∀ c ∈ cs, 0 < c.length) :
    (s.settleAll cs).settleAll cs = s.settleAll cs := by
  have once : (s.settleAll cs).Ranked := h.settleAll long
  have same : ((s.settleAll cs).settleAll cs).components.Perm (s.settleAll cs).components := by
    have laid := settleAll_perm s cs
    have again := foldl_layOver_again (fun c hc => Component.displaces_self (long c hc))
      s.components
    calc ((s.settleAll cs).settleAll cs).components
      _ ~ cs.foldl (layOver displaces) (s.settleAll cs).components := settleAll_perm _ cs
      _ ~ cs.foldl (layOver displaces) (cs.foldl (layOver displaces) s.components) :=
          perm_foldl_layOver laid cs
      _ = cs.foldl (layOver displaces) s.components := again
      _ ~ (s.settleAll cs).components := laid.symm
  have components := (once.settleAll long).components_eq once same
  have size : ((s.settleAll cs).settleAll cs).size = (s.settleAll cs).size := by
    rw [size_settleAll, size_settleAll, foldl_max_again]
  have kind := kind_settleAll (s.settleAll cs) cs
  cases h₁ : (s.settleAll cs).settleAll cs
  cases h₂ : s.settleAll cs
  simp_all

end Composite

/-! ## Calls on a program -/

namespace Program

variable {p : Program} {owner : TypeId} {name : Json} {s t : Composite} {kind : CompositeKind}

def withComposite (p : Program) (owner : TypeId) (name : Json) (s : Composite) : Program :=
  { p with arena := p.arena.set owner (.named name (.composite s)) }

theorem withComposite_self (h : p.arena.get? owner = some (.named name (.composite s))) :
    p.withComposite owner name s = p := by
  rw [withComposite, Arena.set_eq_self h]

theorem get?_withComposite (h : owner < p.arena.size) (name : Json) (s : Composite) :
    (p.withComposite owner name s).arena.get? owner = some (.named name (.composite s)) :=
  Arena.get?_set_self _ h

theorem withComposite_withComposite (p : Program) (owner : TypeId) (name : Json)
    (s t : Composite) :
    (p.withComposite owner name s).withComposite owner name t = p.withComposite owner name t := by
  simp only [withComposite, Arena.set, Array.setIfInBounds_setIfInBounds]

/-- A granted placement changes nothing but the composite, and a refused one nothing. -/
theorem editComposite_leaves (here : p.arena.get? owner = some (.named name (.composite s)))
    (hkind : s.kind = kind) (f : Composite → Except Rejection Composite) :
    (editComposite kind owner f p).2 = p.withComposite owner name (s.orElse (f s)) := by
  suffices Runs (editComposite kind owner f) p
      (fun _ q => q = p.withComposite owner name (s.orElse (f s)))
      fun _ q => q = p.withComposite owner name (s.orElse (f s)) from this.snd
  rw [editComposite, Runs.bind_iff, Runs.get_iff, here]
  dsimp only
  rw [if_neg (not_not_intro hkind), Runs.bind_iff, runs_ofExcept]
  cases f s with
  | error cause => exact (withComposite_self here).symm
  | ok s' => rfl

/-- Where there is no composite of the kind, nothing is placed. -/
theorem editComposite_elsewhere
    (h : ∀ name s, p.arena.get? owner = some (.named name (.composite s)) → s.kind ≠ kind)
    (f : Composite → Except Rejection Composite) : (editComposite kind owner f p).2 = p := by
  suffices Runs (editComposite kind owner f) p (fun _ q => q = p) fun _ q => q = p from this.snd
  rw [editComposite, Runs.bind_iff, Runs.get_iff]
  split
  · next name s here =>
      rw [if_pos (h name s here)]
      rfl
  · rfl

theorem editComposite_cases (kind : CompositeKind) (owner : TypeId)
    (f : Composite → Except Rejection Composite) (p : Program) :
    (editComposite kind owner f p).2 = p ∨ ∃ name s s',
      p.arena.get? owner = some (.named name (.composite s)) ∧ f s = .ok s' ∧
        (editComposite kind owner f p).2 = p.withComposite owner name s' := by
  by_cases h : ∃ name s, p.arena.get? owner = some (.named name (.composite s)) ∧ s.kind = kind
  · obtain ⟨name, s, here, hkind⟩ := h
    have leaves := editComposite_leaves here hkind f
    cases hf : f s with
    | error cause => exact .inl (leaves.trans (by rw [hf]; exact withComposite_self here))
    | ok s' => exact .inr ⟨name, s, s', here, hf, by rw [leaves, hf]; rfl⟩
  · exact .inl (editComposite_elsewhere (fun name s here hkind => h ⟨name, s, here, hkind⟩) f)

variable {κ : Type} {f : κ → Composite → Except Rejection Composite}

/-- The program that calls leave behind, each granted or refused. -/
def editAll (kind : CompositeKind) (owner : TypeId)
    (f : κ → Composite → Except Rejection Composite) (p : Program) (calls : List κ) : Program :=
  calls.foldl (fun p call => (editComposite kind owner (f call) p).2) p

theorem editAll_leaves (keeps : ∀ call (c : Composite), (c.orElse (f call c)).kind = c.kind)
    (here : p.arena.get? owner = some (.named name (.composite s))) (hkind : s.kind = kind)
    (calls : List κ) : p.editAll kind owner f calls =
      p.withComposite owner name (calls.foldl (fun c call => c.orElse (f call c)) s) := by
  induction calls generalizing p s with
  | nil => exact (withComposite_self here).symm
  | cons call calls ih =>
      have there := get?_withComposite (Arena.lt_size_of_get? here) name (s.orElse (f call s))
      have rest := ih there ((keeps call s).trans hkind)
      rw [withComposite_withComposite, ← editComposite_leaves here hkind] at rest
      exact rest

theorem editAll_elsewhere
    (h : ∀ name s, p.arena.get? owner = some (.named name (.composite s)) → s.kind ≠ kind)
    (calls : List κ) : p.editAll kind owner f calls = p := by
  induction calls with
  | nil => rfl
  | cons call calls ih =>
      rw [editAll, List.foldl_cons, editComposite_elsewhere h]
      exact ih

/-- Calls that lead a layout no further the second time lead the program no further. -/
theorem editAll_again (keeps : ∀ call (c : Composite), (c.orElse (f call c)).kind = c.kind)
    (here : p.arena.get? owner = some (.named name (.composite s))) (hkind : s.kind = kind)
    {calls : List κ} (hkind' : t.kind = kind)
    (once : calls.foldl (fun c call => c.orElse (f call c)) s = t)
    (again : calls.foldl (fun c call => c.orElse (f call c)) t = t) :
    (p.editAll kind owner f calls).editAll kind owner f calls = p.editAll kind owner f calls := by
  have there := get?_withComposite (Arena.lt_size_of_get? here) name t
  have second := editAll_leaves keeps there hkind' calls
  rw [editAll_leaves keeps here hkind, once, second, again, withComposite_withComposite]

end Program

namespace Placement

variable {p : Program} {owner : TypeId} {name : Json} {s : Composite} {call : Placement}

/-- What a call puts into any structure: nothing if it is refused. -/
def put : Placement → List Component
  | call@(member offset _ length _) => if offset < 0 ∨ length ≤ 0 then [] else [call.component]
  | call@(bits _ width _ _ bitSize _) => if bitSize ≤ 0 ∨ width ≤ 0 then [] else [call.component]

theorem orElse_place (call : Placement) (s : Composite) :
    s.orElse (call.place s) = s.settleAll call.put := by
  cases call with
  | member offset type length name =>
      simp only [place, Composite.placeMember, put]
      by_cases ho : offset < 0
      · simp only [ho, if_true, true_or]
        rfl
      by_cases hl : length ≤ 0
      · simp only [ho, hl, if_true, if_false, or_true]
        rfl
      · simp only [ho, hl, if_false, or_self]
        rfl
  | bits offset width bitOffset type bitSize name =>
      simp only [place, Composite.placeBits, put, Bool.or_eq_true, decide_eq_true_eq]
      split
      · rfl
      · next sizes =>
          obtain ⟨hsize, -⟩ := not_or.mp sizes
          have isBits : decide (bitSize > 0) = true := decide_eq_true (Int.not_le.mp hsize)
          simp only [Composite.orElse, Composite.settleAll, List.foldl_cons, List.foldl_nil,
            Composite.settle, Component.displaces, Component.isBitField, component, isBits, if_true]

theorem length_pos_of_mem_put {c : Component} (h : c ∈ call.put) : 0 < c.length := by
  cases call <;>
    · simp only [put] at h
      split at h
      · cases h
      · obtain rfl := List.mem_singleton.mp h
        simp only [component]
        omega

theorem foldl_place (calls : List Placement) (s : Composite) :
    calls.foldl (fun c call => c.orElse (call.place c)) s = s.settleAll (calls.flatMap put) := by
  simp only [orElse_place, Composite.settleAll, List.foldl_flatMap]

theorem long_of_mem_puts {calls : List Placement} :
    ∀ c ∈ calls.flatMap put, 0 < c.length := by
  intro c hc
  obtain ⟨call, -, hput⟩ := List.mem_flatMap.mp hc
  exact length_pos_of_mem_put hput

theorem kind_orElse_place (call : Placement) (s : Composite) :
    (s.orElse (call.place s)).kind = s.kind := by
  rw [orElse_place, Composite.kind_settleAll]

theorem makeAll_eq_editAll (owner : TypeId) (p : Program) (calls : List Placement) :
    makeAll owner p calls = p.editAll .record owner (fun call c => call.place c) calls := by
  have one (p : Program) (call : Placement) :
      make owner p call = (Program.editComposite .record owner (call.place ·) p).2 := by
    rw [make, edit_eq]
  exact congrArg (List.foldl · p calls) (funext₂ one)

theorem makeAll_leaves (here : p.arena.get? owner = some (.named name (.composite s)))
    (record : s.kind = .record) (calls : List Placement) :
    makeAll owner p calls = p.withComposite owner name (s.settleAll (calls.flatMap put)) := by
  rw [makeAll_eq_editAll, Program.editAll_leaves kind_orElse_place here record, foldl_place]

theorem makeAll_ranked (here : p.arena.get? owner = some (.named name (.composite s)))
    (record : s.kind = .record) (ranked : s.Ranked) (calls : List Placement) : ∃ t,
      (makeAll owner p calls).arena.get? owner = some (.named name (.composite t)) ∧
        t.kind = .record ∧ t.Ranked := by
  refine ⟨s.settleAll (calls.flatMap put), ?_, ?_, ranked.settleAll long_of_mem_puts⟩
  · rw [makeAll_leaves here record]
    exact Program.get?_withComposite (Arena.lt_size_of_get? here) name _
  · exact (Composite.kind_settleAll s _).trans record

theorem makeAll_again (here : p.arena.get? owner = some (.named name (.composite s)))
    (record : s.kind = .record) (ranked : s.Ranked) (calls : List Placement) :
    makeAll owner (makeAll owner p calls) calls = makeAll owner p calls := by
  simp only [makeAll_eq_editAll]
  refine Program.editAll_again kind_orElse_place here record ?_ (foldl_place calls s) ?_
  · exact (Composite.kind_settleAll s _).trans record
  · rw [foldl_place, Composite.settleAll_again ranked long_of_mem_puts]

end Placement

/-! ## Unions -/

/-- What is asked of a union: a member under a name that is given and that equals itself. -/
structure Alternative where
  type : TypeId
  length : Int
  name : Json
  given : name ≠ .null
  proper : name.isNan = false

namespace Alternative

variable {p : Program} {owner : TypeId} {name : Json} {s : Composite}

/-- The program a call leaves behind, granted or refused. -/
def add (owner : TypeId) (p : Program) (call : Alternative) : Program :=
  (Program.addAlternative owner call.type call.length call.name p).2

def addAll (owner : TypeId) (p : Program) (calls : List Alternative) : Program :=
  calls.foldl (add owner) p

def component (call : Alternative) : Component :=
  { offset := 0, type := call.type, length := call.length, name := call.name }

/-- What a call puts into any union: nothing if it is refused. -/
def put (call : Alternative) : List Component := if call.length ≤ 0 then [] else [call.component]

end Alternative

/-- In a union, a later member takes the place of an earlier one of the same name. -/
def Component.supplants (c d : Component) : Bool := d.name.isEqual c.name

namespace Composite

def joinAll (s : Composite) (cs : List Component) : Composite :=
  { s with components := cs.foldl (layOver Component.supplants) s.components
           size := (cs.map Component.stop).foldl max s.size }

theorem joinAll_append (s : Composite) (cs ds : List Component) :
    s.joinAll (cs ++ ds) = (s.joinAll cs).joinAll ds := by
  simp only [joinAll, List.map_append, List.foldl_append]

theorem joinAll_again {s : Composite} {cs : List Component}
    (proper : ∀ c ∈ cs, c.name.isNan = false) : (s.joinAll cs).joinAll cs = s.joinAll cs := by
  have refl : ∀ c ∈ cs, c.supplants c = true := fun c hc => by
    simp [Component.supplants, Json.isEqual, proper c hc]
  simp only [joinAll, foldl_layOver_again refl, foldl_max_again]

end Composite

namespace Alternative

variable {p : Program} {owner : TypeId} {name : Json} {s : Composite}

theorem orElse_add (call : Alternative) (s : Composite) :
    s.orElse (s.addAlternative call.type call.length call.name) = s.joinAll call.put := by
  unfold Composite.addAlternative put
  split
  · rfl
  · simp only [if_neg call.given, Composite.orElse, Composite.joinAll, List.foldl_cons,
      List.foldl_nil, layOver, Component.supplants, List.map_cons, List.map_nil, Component.stop,
      component, Int.zero_add]

theorem foldl_add (calls : List Alternative) (s : Composite) :
    calls.foldl (fun c call => c.orElse (c.addAlternative call.type call.length call.name)) s =
      s.joinAll (calls.flatMap put) := by
  induction calls generalizing s with
  | nil => rfl
  | cons call calls ih =>
      rw [List.foldl_cons, orElse_add, ih, List.flatMap_cons, Composite.joinAll_append]

theorem proper_of_mem_puts {calls : List Alternative} :
    ∀ c ∈ calls.flatMap put, c.name.isNan = false := by
  intro c hc
  obtain ⟨call, -, hput⟩ := List.mem_flatMap.mp hc
  unfold put at hput
  split at hput
  · cases hput
  · obtain rfl := List.mem_singleton.mp hput
    exact call.proper

theorem addAll_again (p : Program) (owner : TypeId) (calls : List Alternative) :
    addAll owner (addAll owner p calls) calls = addAll owner p calls := by
  have isEdit (p : Program) : addAll owner p calls = p.editAll .union owner
      (fun call c => c.addAlternative call.type call.length call.name) calls := rfl
  have keeps (call : Alternative) (c : Composite) :
      (c.orElse (c.addAlternative call.type call.length call.name)).kind = c.kind := by
    rw [orElse_add]
    rfl
  simp only [isEdit]
  by_cases h : ∃ name s,
      p.arena.get? owner = some (.named name (.composite s)) ∧ s.kind = .union
  · obtain ⟨name, s, here, union⟩ := h
    have joined : (s.joinAll (calls.flatMap put)).kind = .union := union
    refine Program.editAll_again keeps here union joined (foldl_add calls s) ?_
    rw [foldl_add, Composite.joinAll_again proper_of_mem_puts]
  · have elsewhere : ∀ name s, p.arena.get? owner = some (.named name (.composite s)) →
        s.kind ≠ .union := fun name s here union => h ⟨name, s, here, union⟩
    rw [Program.editAll_elsewhere elsewhere, Program.editAll_elsewhere elsewhere]

end Alternative

/-- The same calls again leave a program as it is: on a structure whatever else was placed in it
since it was made, and on any union if the names are given. -/
theorem filling_again :
    (∀ (p : Program) (name : Json) (declared : Int) (history calls : List Placement),
      Runs (Program.newComposite .record name declared) p
        (fun owner start =>
          let before := Placement.makeAll owner start history
          let once := Placement.makeAll owner before calls
          (∃ s,
            once.arena.get? owner = some (.named name (.composite s)) ∧ s.kind = .record) ∧
            Placement.makeAll owner once calls = once)
        fun _ _ => False) ∧
    ∀ (p : Program) (owner : TypeId) (calls : List Alternative),
      let once := Alternative.addAll owner p calls
      Alternative.addAll owner once calls = once := by
  refine ⟨fun p name declared history calls => ?_, Alternative.addAll_again⟩
  let empty : TypeObject := .named name (.composite (.empty .record declared))
  have new : (p.arena.push empty).get? p.arena.size = some empty := Arena.get?_push_self _ _
  obtain ⟨s, here, record, ranked⟩ := Placement.makeAll_ranked
    (p := { p with arena := p.arena.push empty }) new rfl (Composite.ranked_empty .record declared)
    history
  obtain ⟨t, there, record', -⟩ := Placement.makeAll_ranked here record ranked calls
  exact ⟨⟨t, there, record'⟩, Placement.makeAll_again here record ranked calls⟩

end StabsImport

import StabsImport.Proofs.Hosting
import StabsImport.Proofs.Refilling

/-!
# A registry over time

Types are made, filled and registered in any order, some of them more than once. A type may be
renamed only while it is registered, so what is registered stands under the name it has from then
on; a type that is registered again finds itself, and a copy of one finds what the type found.
Main statement: `registering`.
-/

namespace StabsImport

/-- What is registered under its own name. -/
def Shape.IsNominal : Shape → Prop
  | enumeration .. | composite _ => True
  | _ => False

/-- What may be asked of the types of a program. -/
inductive TypeRequest where
  | make (t : TypeObject)
  | place (owner : TypeId) (call : Placement)
  | offer (owner type : TypeId) (length : Int) (name : Json)
  | add (id : TypeId)

namespace TypeRequest

/-- The program a request leaves behind, granted or refused. -/
def perform (p : Program) : TypeRequest → Program
  | make t => (Program.newType t p).2
  | place owner call => (call.edit owner p).2
  | offer owner type length name => (Program.addAlternative owner type length name p).2
  | add id => (Program.addType id p).2

def performAll (p : Program) (requests : List TypeRequest) : Program := requests.foldl perform p

/-- A request that speaks of types that are there. A new composite has no members yet, and a new
enumeration no name twice. -/
def Fits (p : Program) : TypeRequest → Prop
  | make t => p.arena.IsPlain t ∧
      ∀ {name size values}, t = .named name (.enumeration size values) → values.Distinct
  | place _ call => call.component.type < p.arena.size
  | offer _ type _ _ => type < p.arena.size
  | add id => ∃ name shape, p.arena.get? id = some (.named name shape) ∧ shape.IsNominal

/-- Each of the requests fits in its turn. -/
def Fit : Program → List TypeRequest → Prop
  | _, [] => True
  | p, request :: rest => request.Fits p ∧ Fit (request.perform p) rest

theorem fit_append {p : Program} {xs ys : List TypeRequest} :
    Fit p (xs ++ ys) ↔ Fit p xs ∧ Fit (performAll p xs) ys := by
  induction xs generalizing p with
  | nil => simp [Fit, performAll]
  | cons x xs ih => exact (and_congr_right fun _ => ih).trans and_assoc.symm

end TypeRequest

theorem Placement.isPlacement (call : Placement) :
    IsPlacement call.component.type (call.place ·) := by
  cases call with
  | member offset type length name => exact isPlacement_placeMember offset type length name
  | bits offset width bitOffset type bitSize name =>
      exact isPlacement_placeBits offset width bitOffset type bitSize name

namespace Program

open TypeRequest (performAll Fit)

variable {p q : Program} {id c r : TypeId} {name own : String} {shape : Shape}

/-- Without any types. -/
def bare (p : Program) : Program := { p with arena := {}, registry := {} }

/-- Every registered type stands under the name it has, no name stands twice, and no type. -/
structure RegistryStands (p : Program) : Prop where
  own : ∀ e ∈ p.registry.entries, p.arena.name e.2 = .ok e.1
  names : p.registry.Distinct
  types : p.registry.values.Nodup

/-- What came of registering a type: a registered type, that had been registered before or was so
now, under one of its names in turn that was free. From then on, any copy that was or is made of the
type finds the same. -/
structure Files (p : Program) (id r : TypeId) (q : Program) : Prop where
  registered : r ∈ q.registry.values
  grows : q.registry = p.registry ∨ r = id ∧ ∃ name n, p.arena.name id = .ok (.text name) ∧
    p.registry.get? (.text (nameInTurn name n)) = none ∧
    q.registry.entries = p.registry.entries ++ [(.text (nameInTurn name n), id)]
  copies : ∀ {own shape}, p.arena.get? id = some (.named own shape) → shape.IsInitial →
    ∀ (made : List TypeObject) (c : TypeId) (called : Json),
      called = own ∨ q.arena.name id = .ok called →
      let later := performAll q (made.map .make)
      Fit q (made.map .make) → later.arena.get? c = some (.named called shape) →
        Runs (addType c) later (fun r' q' => r' = r ∧ q' = later) fun _ _ => False

/-- What holds of a program while types are made, filled and registered. -/
structure Catalogued (p : Program) : Prop where
  sound : p.Sound
  room : p.arena.room = none
  distinct : p.registry.Distinct
  named : ∀ {name id}, p.registry.get? name = some id →
    ∃ shape, p.arena.get? id = some (.named name shape)
  proper : ∀ {id name size values},
    p.arena.get? id = some (.named name (.enumeration size values)) → values.Distinct

namespace Catalogued

theorem bare (p : Program) : p.bare.Catalogued where
  sound := { arena := Arena.sound_empty, lt_size := nofun, text := nofun, own := nofun }
  room := rfl
  distinct := Ledger.distinct_empty
  named := nofun
  proper h := by cases h

theorem arena_name (room : p.arena.room = none) {n : Json}
    (h : p.arena.get? id = some (.named n shape)) : p.arena.name id = .ok n := by
  simp [Arena.name, Arena.reach, room, Arena.nameWithin, h]

theorem stands (h : p.Catalogued) : p.RegistryStands := by
  have own : ∀ e ∈ p.registry.entries, p.arena.name e.2 = .ok e.1 := fun e he => by
    obtain ⟨shape, hshape⟩ := h.named (h.distinct.get?_of_mem he)
    exact arena_name h.room hshape
  refine ⟨own, h.distinct, ?_⟩
  have apart : p.registry.entries.Pairwise fun e e' => Key.same e.1 e'.1 = false :=
    List.pairwise_map.mp h.distinct
  refine List.pairwise_map.mpr (apart.imp_of_mem fun he he' hkeys heq => ?_)
  have names := (own _ he).symm.trans (heq ▸ own _ he')
  rw [Except.ok.inj names, Key.same_self] at hkeys
  cases hkeys

/-! ## Making and filling -/

theorem make (h : p.Catalogued) {t : TypeObject} (fits : (TypeRequest.make t).Fits p) :
    ((TypeRequest.make t).perform p).Catalogued where
  sound := h.sound.push (h.sound.arena.push fits.1)
  room := h.room
  distinct := h.distinct
  named hr := by
    obtain ⟨shape, hshape⟩ := h.named hr
    exact ⟨shape, Arena.get?_push_of_get? _ hshape⟩
  proper hg := by
    rcases Arena.get?_push_cases hg with ⟨-, ht⟩ | hg
    · exact fits.2 ht.symm
    · exact h.proper hg

theorem withComposite (h : p.Catalogued) {n : Json} {s s' : Composite}
    (here : p.arena.get? id = some (.named n (.composite s)))
    (placed : ∀ m ∈ s'.components, m.type < p.arena.size) :
    (p.withComposite id n s').Catalogued where
  sound := h.sound.setComposite here placed
  room := h.room
  distinct := h.distinct
  named {own k} hr := by
    obtain ⟨shape, hshape⟩ := h.named hr
    by_cases hk : k = id
    · obtain rfl : own = n := by
        rw [hk, here] at hshape
        exact (TypeObject.named.inj (Option.some.inj hshape)).1.symm
      rw [hk]
      exact ⟨_, get?_withComposite (Arena.lt_size_of_get? here) _ _⟩
    · exact ⟨shape, (Arena.get?_set_of_ne _ _ hk).trans hshape⟩
  proper {k own size values} hg := by
    by_cases hk : k = id
    · rw [hk, get?_withComposite (Arena.lt_size_of_get? here)] at hg
      cases hg
    · exact h.proper ((Arena.get?_set_of_ne _ _ hk).symm.trans hg)

theorem edit (h : p.Catalogued) (kind : CompositeKind) (owner : TypeId) {type : TypeId}
    {f : Composite → Except Rejection Composite} (hf : IsPlacement type f)
    (htype : type < p.arena.size) :
    (editComposite kind owner f p).2.Catalogued ∧
      (editComposite kind owner f p).2.registry = p.registry := by
  rcases editComposite_cases kind owner f p with hp | ⟨n, s, s', here, hs', hp⟩
  · rw [hp]
    exact ⟨h, rfl⟩
  · rw [hp]
    refine ⟨h.withComposite here fun m hm => ?_, rfl⟩
    rcases hf.components hs' m hm with hold | rfl
    · exact h.sound.arena.placed here m hold
    · exact htype

/-! ## Registering -/

/-- How registering a type ends. Before its place, all names lead to what will not do for it. -/
inductive Ends (p : Program) (id : TypeId) (name : String) (shape : Shape) :
    TypeId → Program → Prop
  | found (n : Nat) (r : TypeId) (before : ∀ m < n, p.IsBarred id (nameInTurn name m))
      (here : p.registry.get? (.text (nameInTurn name n)) = some r)
      (serves : r = id ∨ p.arena.canReuse r id = .ok true) : Ends p id name shape r p
  | placed (n : Nat) (before : ∀ m < n, p.IsBarred id (nameInTurn name m))
      (free : p.registry.get? (.text (nameInTurn name n)) = none)
      (unplaced : ∀ k, p.registry.get? k ≠ some id) :
      Ends p id name shape id (p.registered id (nameInTurn name n) shape)

theorem runs_addType (h : p.Catalogued) (hid : p.arena.get? id = some (.named (.text name) shape)) :
    Runs (addType id) p (Ends p id name shape) fun _ _ => False := by
  by_cases placed : ∃ k, p.registry.get? k = some id
  · obtain ⟨k, hk⟩ := placed
    obtain rfl : Json.text name = k := h.sound.own hk hid
    have place : p.place id (.text name) = .ok (.free (.text name)) := by
      simp [Program.place, Json.isKey, hk, pure, Except.pure]
    have put : p.registry.put (.text name) id = p.registry := Ledger.put_of_get? hk
    simp only [addType, Runs.bind_iff, runs_view, arena_name h.room hid, place]
    have found : Ends p id name shape id p :=
      .found 0 id (fun _ hlt => absurd hlt (Nat.not_lt_zero _)) hk (.inl rfl)
    simpa [put] using found
  · have unplaced : ∀ k, p.registry.get? k ≠ some id := fun k hk => placed ⟨k, hk⟩
    refine Program.runs_addType h.sound h.room hid unplaced (fun n other before here serves => ?_)
      fun n before free => ?_
    · exact .found n other before here (.inr serves)
    · exact .placed n before free unplaced

theorem registered (h : p.Catalogued) (hid : p.arena.get? id = some (.named (.text name) shape))
    (unplaced : ∀ k, p.registry.get? k ≠ some id) (own : String) :
    (p.registered id own shape).Catalogued where
  sound := h.sound.registered own hid unplaced
  room := h.room
  distinct := h.distinct.put _ _
  named {k x} hr := by
    simp only [Program.registered, Ledger.get?_put] at hr
    split at hr
    · next hk =>
        rw [Key.same_comm] at hk
        obtain rfl := Json.same_text_iff.mp hk
        obtain rfl := Option.some.inj hr
        exact ⟨shape, Arena.get?_set_self _ (Arena.lt_size_of_get? hid)⟩
    · obtain ⟨shape', hshape⟩ := h.named hr
      have hne : x ≠ id := fun hx => unplaced k (hx ▸ hr)
      exact ⟨shape', (Arena.get?_set_of_ne _ _ hne).trans hshape⟩
  proper {k n size values} hg := by
    simp only [Program.registered] at hg
    by_cases hk : k = id
    · subst hk
      rw [Arena.get?_set_self _ (Arena.lt_size_of_get? hid), Option.some.injEq,
        TypeObject.named.injEq] at hg
      exact h.proper (hg.2 ▸ hid)
    · exact h.proper ((Arena.get?_set_of_ne _ _ hk).symm.trans hg)

namespace Ends

theorem catalogued (h : p.Catalogued)
    (hid : p.arena.get? id = some (.named (.text name) shape)) (ends : Ends p id name shape r q) :
    q.Catalogued := by
  cases ends with
  | found => exact h
  | placed n before free unplaced => exact h.registered hid unplaced _

theorem registry (ends : Ends p id name shape r q) : q.registry = p.registry ∨
    r = id ∧ ∃ n, p.registry.get? (.text (nameInTurn name n)) = none ∧
      q.registry.entries = p.registry.entries ++ [(.text (nameInTurn name n), id)] := by
  cases ends with
  | found => exact .inl rfl
  | placed n before free => exact .inr ⟨rfl, n, free, Ledger.entries_put_of_free free id⟩

/-- What an initial type found, any type of its shape and name finds. -/
theorem hosts (hid : p.arena.get? id = some (.named (.text name) shape))
    (initial : shape.IsInitial) (ends : Ends p id name shape r q) :
    ∃ n, q.Hosts name shape n r := by
  have own : p.arena.Serves shape id := ⟨_, _, hid, initial.serves⟩
  have barred {n : Nat} (before : ∀ m < n, p.IsBarred id (nameInTurn name m)) :
      ∀ m < n, ∃ other, p.registry.get? (.text (nameInTurn name m)) = some other ∧
        ¬ p.arena.Serves shape other := fun m hm => by
    obtain ⟨other, ho, hreuse⟩ := before m hm
    refine ⟨other, ho, fun hserves => ?_⟩
    rw [(Arena.canReuse_initial hid initial).mpr hserves] at hreuse
    cases hreuse
  cases ends with
  | found n r before here serves =>
      refine ⟨n, barred before, here, ?_⟩
      rcases serves with rfl | hreuse
      · exact own
      · exact (Arena.canReuse_initial hid initial).mp hreuse
  | placed n before free unplaced =>
      have hlt := Arena.lt_size_of_get? hid
      refine ⟨n, fun m hm => ?_, Ledger.get?_put_self _ _ _,
        _, _, Arena.get?_set_self _ hlt, initial.serves⟩
      obtain ⟨other, ho, hother⟩ := barred before m hm
      have hne : other ≠ id := fun hx => unplaced _ (hx ▸ ho)
      have same : (p.registered id (nameInTurn name n) shape).arena.get? other =
        p.arena.get? other := Arena.get?_set_of_ne _ _ hne
      exact ⟨other, Ledger.get?_put_of_free free ho,
        fun serves => hother ((Arena.serves_congr same).mp serves)⟩

/-- Under the name that the type has by then, what it found is found as well. -/
theorem hosts_after (room : p.arena.room = none)
    (hid : p.arena.get? id = some (.named (.text name) shape)) (initial : shape.IsInitial)
    {own : Json} (ends : Ends p id name shape r q) (hown : q.arena.name id = .ok own) :
    ∃ name' n, own = .text name' ∧ q.Hosts name' shape n r := by
  cases ends with
  | found n r before here serves =>
      rw [arena_name room hid] at hown
      obtain rfl := Except.ok.inj hown
      obtain ⟨n, hn⟩ := hosts hid initial (.found n r before here serves)
      exact ⟨name, n, rfl, hn⟩
  | placed n before free unplaced =>
      have there : (p.registered id (nameInTurn name n) shape).arena.get? id =
        some (.named (.text (nameInTurn name n)) shape) :=
          Arena.get?_set_self _ (Arena.lt_size_of_get? hid)
      have room : (p.registered id (nameInTurn name n) shape).arena.room = none := room
      rw [arena_name room there] at hown
      obtain rfl := Except.ok.inj hown
      exact ⟨_, 0, rfl, nofun, Ledger.get?_put_self _ _ _, _, _, there, initial.serves⟩

end Ends

/-- Where something is hosted for an initial type, registering the type finds it. -/
theorem runs_addType_hosted (h : p.Catalogued) {n : Nat}
    (hid : p.arena.get? id = some (.named (.text name) shape)) (initial : shape.IsInitial)
    (hosts : p.Hosts name shape n r) :
    Runs (addType id) p (fun r' q => r' = r ∧ q = p) fun _ _ => False := by
  refine (h.runs_addType hid).mono (fun r' q ends => ?_) fun _ _ => False.elim
  cases ends with
  | found m r' before here serves =>
      obtain ⟨m', hm'⟩ := Ends.hosts hid initial (.found m r' before here serves)
      exact ⟨hm'.eq hosts, rfl⟩
  | placed m before free unplaced =>
      exfalso
      rcases Nat.lt_trichotomy m n with hlt | rfl | hlt
      · obtain ⟨other, ho, -⟩ := hosts.before m hlt
        rw [free] at ho
        cases ho
      · rw [hosts.here] at free
        cases free
      · obtain ⟨other, ho, hreuse⟩ := before n hlt
        obtain rfl := Option.some.inj (hosts.here.symm.trans ho)
        rw [(Arena.canReuse_initial hid initial).mpr hosts.serves] at hreuse
        cases hreuse

/-! ## All requests -/

theorem perform (h : p.Catalogued) {request : TypeRequest} (fits : request.Fits p) :
    (request.perform p).Catalogued ∧
      p.registry.entries <+: (request.perform p).registry.entries := by
  cases request with
  | make t => exact ⟨h.make fits, List.prefix_rfl⟩
  | place owner call =>
      obtain ⟨kept, same⟩ := h.edit .record owner call.isPlacement fits
      rw [TypeRequest.perform, Placement.edit_eq, same]
      exact ⟨kept, List.prefix_rfl⟩
  | offer owner type length name =>
      obtain ⟨kept, same⟩ := h.edit .union owner (isPlacement_addAlternative type length name) fits
      rw [TypeRequest.perform, Program.addAlternative, same]
      exact ⟨kept, List.prefix_rfl⟩
  | add id =>
      obtain ⟨own, shape, hid, -⟩ := fits
      obtain ⟨name, rfl⟩ := h.sound.arena.texts hid
      obtain ⟨r, q, hrun, ends⟩ := (h.runs_addType hid).exists_ok
      rw [TypeRequest.perform, hrun]
      refine ⟨ends.catalogued h hid, ?_⟩
      rcases ends.registry with same | ⟨-, n, -, grown⟩
      · exact same.symm ▸ List.prefix_rfl
      · rw [grown]
        exact List.prefix_append _ _

theorem performAll (h : p.Catalogued) {requests : List TypeRequest} (fit : Fit p requests) :
    (TypeRequest.performAll p requests).Catalogued ∧
      p.registry.entries <+: (TypeRequest.performAll p requests).registry.entries := by
  induction requests generalizing p with
  | nil => exact ⟨h, List.prefix_rfl⟩
  | cons request rest ih =>
      obtain ⟨next, first⟩ := h.perform fit.1
      obtain ⟨last, more⟩ := ih next fit.2
      exact ⟨last, first.trans more⟩

/-- Making types changes nothing about those that are there. -/
theorem makeAll (h : p.Catalogued) {made : List TypeObject} (fit : Fit p (made.map .make)) :
    let q := TypeRequest.performAll p (made.map .make)
    q.Catalogued ∧ q.registry = p.registry ∧
      ∀ {x t}, p.arena.get? x = some t → q.arena.get? x = some t := by
  induction made generalizing p with
  | nil => exact ⟨h, rfl, id⟩
  | cons t made ih =>
      obtain ⟨last, registry, kept⟩ := ih (h.make fit.1) fit.2
      exact ⟨last, registry, fun hx => kept (Arena.get?_push_of_get? t hx)⟩

theorem Ends.mem (ends : Ends p id name shape r q) : r ∈ q.registry.values := by
  cases ends with
  | found n r before here =>
      obtain ⟨e, he, -, rfl⟩ := Ledger.exists_entry_of_get? here
      exact List.mem_map_of_mem he
  | placed n before free =>
      rw [Ledger.values, Program.registered, Ledger.entries_put_of_free free]
      simp

theorem files (h : p.Catalogued) (fits : (TypeRequest.add id).Fits p) :
    Runs (addType id) p (fun r q => p.Files id r q) fun _ _ => False := by
  obtain ⟨own, shape, hid, -⟩ := fits
  obtain ⟨name, rfl⟩ := h.sound.arena.texts hid
  refine (h.runs_addType hid).mono (fun r q ends => ⟨ends.mem, ?_, ?_⟩) fun _ _ => False.elim
  · refine ends.registry.imp_right fun ⟨hr, n, free, grown⟩ => ⟨hr, name, n, ?_, free, grown⟩
    exact arena_name h.room hid
  · intro own shape' hown initial made c called hcalled later fit hc
    obtain ⟨rfl, rfl⟩ : own = .text name ∧ shape' = shape := by
      rw [hid, Option.some.injEq, TypeObject.named.injEq] at hown
      exact ⟨hown.1.symm, hown.2.symm⟩
    have hosts : ∃ name' n, called = .text name' ∧ q.Hosts name' shape' n r := by
      rcases hcalled with rfl | hcalled
      · obtain ⟨n, hn⟩ := ends.hosts hid initial
        exact ⟨name, n, rfl, hn⟩
      · exact ends.hosts_after h.room hid initial hcalled
    obtain ⟨name', n, rfl, hn⟩ := hosts
    have hq := ends.catalogued h hid
    obtain ⟨catalogued, registry, kept⟩ := hq.makeAll fit
    refine catalogued.runs_addType_hosted hc initial
      (hn.mono (fun hx => registry ▸ hx) fun hx => ?_)
    obtain ⟨shape, hshape⟩ := hq.named hx
    exact Arena.serves_congr ((kept hshape).trans hshape.symm)

end Catalogued

/-- Whatever is made, filled and registered, from an empty registry on. -/
theorem registering (p : Program) (requests more : List TypeRequest)
    (fit : Fit p.bare (requests ++ more)) :
    let q := performAll p.bare requests
    q.RegistryStands ∧ q.registry.entries <+: (performAll q more).registry.entries ∧
      ∀ id, (TypeRequest.add id).Fits q →
        Runs (addType id) q (fun r q' => q.Files id r q') fun _ _ => False := by
  obtain ⟨first, rest⟩ := TypeRequest.fit_append.mp fit
  obtain ⟨h, -⟩ := (Catalogued.bare p).performAll first
  exact ⟨h.stands, (h.performAll rest).2, fun id fits => h.files fits⟩

def colours : TypeObject :=
  .named (.text "colour") (.enumeration 4 ⟨[(.text "RED", 0), (.text "BLUE", 1)]⟩)

def pixel : TypeObject := .named (.text "colour") (.composite (.empty .record 8))

def filings : List TypeRequest :=
  [.make colours, .add 0, .make pixel, .place 1 (.member 0 0 4 (.text "tint")), .add 1]

/-- A structure that is called like an enumeration is registered under the name of a conflict, and
then again. -/
theorem registering_conflict :
    let q := performAll (bare {}) filings
    q.registry.entries = [(.text "colour", 0), (.text "colour.conflict", 1)] ∧
      q.RegistryStands ∧ q.registry.entries <+: (performAll q [.add 1]).registry.entries ∧
      Runs (addType 1) q (fun r q' => q.Files 1 r q') fun _ _ => False := by
  have fit : Fit (bare {}) (filings ++ [.add 1]) := by
    refine ⟨⟨Arena.IsPlain.enumeration _ _ _, ?_⟩, ⟨_, _, rfl, trivial⟩,
      ⟨Arena.IsPlain.shell _ _ _, nofun⟩, ?_, ⟨_, _, rfl, trivial⟩, ⟨_, _, rfl, trivial⟩, trivial⟩
    · rintro _ _ _ ⟨⟩
      simp [Ledger.Distinct, Ledger.keys]
    · exact Nat.succ_pos _
  obtain ⟨stands, kept, files⟩ := registering {} filings [.add 1] fit
  exact ⟨rfl, stands, kept, files 1 ⟨_, _, rfl, trivial⟩⟩

end Program

end StabsImport

import StabsImport.Proofs.Abreast
import StabsImport.Proofs.Cycles
import StabsImport.Proofs.Placing
import StabsImport.Proofs.Renumbering
import StabsImport.Proofs.Repetition

/-!
# Sessions that mirror each other

Two sessions over one document hold the same types but for their numbers: in the table, in the caches
and in the members put into composites since the numbering parted. Whatever is resolved in both keeps
them so. Main statement: `Mirrors.concord`.
-/

namespace StabsImport

open Document (Node BuiltInClass TypeReference)

namespace Import

open Bond

/-- The session with another arena. -/
def Session.withArena (s : Session) (a : Arena) : Session :=
  { s with program := { s.program with arena := a } }

/-- What either session has on record, the types of the one under other numbers in the other. -/
structure Mirrors (σ : Renumbering) (s s' : Session) : Prop where
  arenas : σ.Mirror s.program.arena s'.program.arena
  typed : s.document.WellTyped
  document : s'.document = s.document
  room : s.room = none
  room' : s'.room = none
  knows : s.knowsPointerSize = true
  knows' : s'.knowsPointerSize = true
  pointerSize : s'.program.pointerSize = s.program.pointerSize
  listed : s.IsListed
  prepared : s'.isPrepared = true
  tables : s'.table.size = s.table.size
  entries : ∀ k, Option.Rel (σ.Pairs s.program.arena) (s.typeAt? k) (s'.typeAt? k)
  builtIns : ∀ c, Option.Rel (σ.Pairs s.program.arena) (s.cache.builtIns.get? c)
    (s'.cache.builtIns.get? c)
  pointers : ∀ {x}, (x < σ.first.size → σ.live x) → ∀ size, Option.Rel (σ.Pairs s.program.arena)
    (s.cache.pointers.get? (x, size)) (s'.cache.pointers.get? (σ.apply x, size))
  arrays : ∀ {x}, (x < σ.first.size → σ.live x) → ∀ count, Option.Rel (σ.Pairs s.program.arena)
    (s.cache.arrays.get? (x, count)) (s'.cache.arrays.get? (σ.apply x, count))
  nodes : ∀ serial, Option.Rel (σ.Pairs s.program.arena) (s.cache.nodes.get? serial)
    (s'.cache.nodes.get? serial)

/-- Such sessions, and the types that go together in them. -/
def bond (σ : Renumbering) : Bond where
  related := Mirrors σ
  paired s _ := σ.Pairs s.program.arena

variable {σ : Renumbering} {s s' t t' : Session} {a b : Arena} {x y : Nat}

theorem rel_mono {α β : Type} {R S : α → β → Prop} {o : Option α} {o' : Option β}
    (h : Option.Rel R o o') (sub : ∀ a b, R a b → S a b) : Option.Rel S o o' := by
  cases h with
  | none => exact .none
  | some h => exact .some (sub _ _ h)

/-- What is recorded in both under one key is found in both under that key. -/
theorem rel_get?_put {κ : Type} [Key κ] {R : TypeId → TypeId → Prop} {l l' : Ledger κ TypeId}
    {k k₀ k' k₀' : κ} {x y : TypeId} (same : Key.same k k₀ = Key.same k' k₀')
    (h : Option.Rel R (l.get? k) (l'.get? k')) (hxy : R x y) :
    Option.Rel R ((l.put k₀ x).get? k) ((l'.put k₀' y).get? k') := by
  cases hk : Key.same k k₀ with
  | true =>
      rw [Ledger.get?_put_of_same _ _ (Key.same_comm k k₀ ▸ hk),
        Ledger.get?_put_of_same _ _ (Key.same_comm k' k₀' ▸ same ▸ hk)]
      exact .some hxy
  | false =>
      rw [Ledger.get?_put_of_not_same _ _ hk, Ledger.get?_put_of_not_same _ _ (same ▸ hk)]
      exact h

theorem same_keys (parted : σ.first.size ≤ σ.second.size) (h : y = σ.apply x) {z : Nat} {n m : Int} :
    Key.same (z, n) (x, m) = Key.same (σ.apply z, n) (y, m) := by
  refine decide_eq_decide.mpr ?_
  subst h
  show (z, n) = (x, m) ↔ (σ.apply z, n) = (σ.apply x, m)
  rw [Prod.mk.injEq, Prod.mk.injEq]
  exact and_congr_left fun _ => ⟨congrArg _, Renumbering.apply_inj parted⟩

namespace Mirrors

/-- Types were added in both, or members put in composites. -/
theorem withArena (h : Mirrors σ s s') (hm : σ.Mirror a b)
    (size_le : s.program.arena.size ≤ a.size) :
    (bond σ).Onward s s' (s.withArena a) (s'.withArena b) where
  related :=
    { h with
      arenas := hm
      listed := h.listed
      entries k := rel_mono (h.entries k) fun _ _ h => h.mono size_le
      builtIns c := rel_mono (h.builtIns c) fun _ _ h => h.mono size_le
      pointers hx size := rel_mono (h.pointers hx size) fun _ _ h => h.mono size_le
      arrays hx count := rel_mono (h.arrays hx count) fun _ _ h => h.mono size_le
      nodes n := rel_mono (h.nodes n) fun _ _ h => h.mono size_le }
  paired hxy := hxy.mono size_le

/-- A type is made in both. -/
theorem push (h : Mirrors σ s s') {t u : TypeObject}
    (htu : t.Resembles (σ.Pairs s.program.arena) u) (ht : s.program.arena.IsPlain t)
    (hu : s'.program.arena.IsPlain u) :
    (bond σ).Onward s s' (s.withArena (s.program.arena.push t))
        (s'.withArena (s'.program.arena.push u)) ∧
      σ.Pairs (s.program.arena.push t) s.program.arena.size s'.program.arena.size := by
  refine ⟨h.withArena (h.arenas.push htu ht hu) ?_, h.arenas.pairs_push t⟩
  rw [Arena.size_push]
  exact Nat.le_succ _

theorem onward (h : Mirrors σ t t') (arena : t.program.arena = s.program.arena) :
    (bond σ).Onward s s' t t' := ⟨h, fun hxy => by
      show σ.Pairs t.program.arena _ _
      rw [arena]
      exact hxy⟩

theorem setEntry (h : Mirrors σ s s') (hxy : σ.Pairs s.program.arena x y) (k : Nat) :
    Mirrors σ { s with table := s.table.setIfInBounds k (some x) }
      { s' with table := s'.table.setIfInBounds k (some y) } :=
  { h with
    listed := by
      refine ⟨h.listed.1, fun j hj => ?_⟩
      rw [Session.typeAt?_set]
      split
      · exact Option.some_ne_none x
      · exact h.listed.2 j hj
    tables := by simp [h.tables]
    entries := fun j => by
      rw [Session.typeAt?_set, Session.typeAt?_set, h.tables]
      split
      · exact .some hxy
      · exact h.entries j }

theorem cacheNode (h : Mirrors σ s s') (hxy : σ.Pairs s.program.arena x y) (serial : Nat) :
    Mirrors σ { s with cache.nodes := s.cache.nodes.put serial x }
      { s' with cache.nodes := s'.cache.nodes.put serial y } :=
  { h with
    listed := h.listed
    nodes := fun n => rel_get?_put rfl (h.nodes n) hxy }

end Mirrors

variable {α : Type} {V : α → α → Session → Session → Prop}

/-! ## What goes on in both -/

theorem edit_bind {β : Type} (m : Edit α) (f : α → Edit β) :
    edit (m >>= f) = edit m >>= fun a => edit (f a) := by
  funext s
  rw [Runs.bind_apply]
  unfold edit
  rw [Runs.bind_apply]
  rcases m s.program with ⟨_ | _, _⟩ <;> rfl

theorem edit_get (s : Session) : edit (get : Edit Program) s = (.ok s.program, s) := rfl

namespace Mirrors

theorem need (calls : Nat) : (bond σ).Abreast s s' (need calls) (need calls) Any := fun h => by
  have done {s : Session} (hr : s.room = none) : Import.need calls s = (.ok (), s) :=
    inside_of_unlimited hr hr calls rfl
  rw [done h.room, done h.room']
  exact .ok (.refl h) trivial

theorem diagnose (source message : String) :
    (bond σ).Abreast s s' (diagnose source message) (diagnose source message) Any :=
  (need _).bind fun _ _ _ _ _ _ => .modify fun h =>
    onward { h with listed := h.listed } rfl

theorem newType {t u : TypeObject} (htu : t.Resembles (σ.Pairs s.program.arena) u)
    (ht : s.program.arena.IsPlain t) (hu : s'.program.arena.IsPlain u) :
    (bond σ).Abreast s s' (edit (Program.newType t)) (edit (Program.newType u)) (bond σ).Types :=
  fun h => .ok (h.push htu ht hu).1 (h.push htu ht hu).2

theorem newLeaf {t : TypeObject} (links : t.links = []) (plain : t.composite? = none)
    (ht : ∀ a : Arena, a.IsPlain t) :
    (bond σ).Abreast s s' (edit (Program.newType t)) (edit (Program.newType t)) (bond σ).Types :=
  newType (.leaf links plain) (ht _) (ht _)

theorem newUndefined (size : Int) : (bond σ).Makes (edit (Program.newUndefined size)) := by
  intro s s'
  unfold Program.newUndefined
  split
  · exact .throw _
  · exact newLeaf rfl rfl fun _ => .undefined size

theorem sizedType (hxy : σ.Pairs s.program.arena x y) :
    (bond σ).Abreast s s' (edit (Program.sizedType (some x))) (edit (Program.sizedType (some y)))
      (bond σ).Types := by
  intro h
  rw [edit_sizedType, edit_sizedType, ← h.arenas.length_eq hxy]
  split
  · exact newUndefined 1 s s' h
  · exact .ok (.refl h) hxy

/-- Where a type is on record it is found; else one is made and recorded. -/
theorem shared {find find' : Session → Option TypeId} {make make' : ImportM TypeId}
    {record record' : TypeId → Session → Session}
    (found : Mirrors σ s s' → Option.Rel (σ.Pairs s.program.arena) (find s) (find' s'))
    (made : (bond σ).Abreast s s' make make' (bond σ).Types)
    (recorded : ∀ {u u' : Session} {x y : TypeId}, Mirrors σ u u' → σ.Pairs u.program.arena x y →
      Mirrors σ (record x u) (record' y u'))
    (arena : ∀ x u, (record x u).program.arena = u.program.arena) :
    (bond σ).Abreast s s'
      (do
        match find (← get) with
        | some id => return id
        | none =>
            let id ← make
            modify (record id)
            return id)
      (do
        match find' (← get) with
        | some id => return id
        | none =>
            let id ← make'
            modify (record' id)
            return id) (bond σ).Types := by
  refine .get fun h => ?_
  have same := found h
  revert same
  generalize find s = o, find' s' = o'
  rintro (hxy | _)
  · exact .pure hxy
  · refine made.bind fun x y u u' _ hxy => ?_
    exact Abreast.bind (V := Any) (.modify fun hu => onward (recorded hu hxy) (arena x u))
      fun _ _ _ _ onward _ => .pure (onward.paired hxy)

theorem builtIn (c : BuiltInClass) : (bond σ).Makes (builtIn c) := by
  intro s s'
  have leaf : (builtInType c).links = [] ∧ (builtInType c).composite? = none := by
    cases c <;> exact ⟨rfl, rfl⟩
  refine (need 3).bind fun _ _ t t' _ _ => shared (fun h => h.builtIns c)
    (newLeaf leaf.1 leaf.2 fun a => isPlain_builtInType a c) (fun hu hxy => ?_) fun _ _ => rfl
  exact { hu with
    listed := hu.listed
    builtIns := fun c' => rel_get?_put rfl (hu.builtIns c') hxy }

theorem sameSize : (bond σ).Abreast s s' Import.pointerSize Import.pointerSize Same := by
  refine .get fun h => ?_
  rw [h.knows, h.knows']
  exact .pure h.pointerSize.symm

theorem pointerTo (hxy : σ.Pairs s.program.arena x y) :
    (bond σ).Abreast s s' (pointerTo x) (pointerTo y) (bond σ).Types := by
  refine (need 3).bind fun _ _ t t' first _ => sameSize.bind fun size _ u u' second hsize => ?_
  obtain rfl := hsize
  have hxy : σ.Pairs u.program.arena x y := second.paired (first.paired hxy)
  refine shared (fun h => hxy.number ▸ h.pointers hxy.live size) (fun h => ?_)
    (fun hv hnew => ?_) fun _ _ => rfl
  · exact newType (.pointer hxy) (.pointer hxy.lt_size size) (.pointer (h.arenas.lt_size hxy) size) h
  · exact { hv with
      listed := hv.listed
      pointers := fun {z} hz other =>
        rel_get?_put (same_keys hv.arenas.parted hxy.number) (hv.pointers hz other) hnew }

theorem typeLength (hxy : σ.Pairs s.program.arena x y) :
    (bond σ).Abreast s s' (typeLength x) (typeLength y) Same :=
  fun h => .ok (.refl h) (h.arenas.length_eq hxy)

theorem typeName (hxy : σ.Pairs s.program.arena x y) :
    (bond σ).Abreast s s' (typeName x) (typeName y) Same := by
  intro h
  have name (s : Session) (x : TypeId) : Import.typeName x s = (s.program.arena.plainName x, s) := by
    have same : Import.typeName x s =
        edit (Program.ofResult (s.program.arena.plainName x)) s := rfl
    rw [same]
    cases s.program.arena.plainName x <;> rfl
  have plain : s.program.arena.plainName x = s'.program.arena.plainName y := by
    rw [Arena.plainName, Arena.plainName, h.arenas.name_eq hxy]
  rw [name, name, ← plain]
  cases s.program.arena.plainName x with
  | ok n => exact .ok (.refl h) rfl
  | error e => exact .error (.refl h)

theorem newArray (hxy : σ.Pairs s.program.arena x y) (count : Int) :
    (bond σ).Abreast s s' (edit (Program.newArray x count)) (edit (Program.newArray y count))
      (bond σ).Types := by
  rw [Program.newArray, Program.newArray, edit_bind, edit_bind]
  refine (typeLength hxy).bind fun length _ t t' onward hlength => ?_
  obtain rfl := hlength
  have hxy : σ.Pairs t.program.arena x y := onward.paired hxy
  split
  · rw [edit_bind, edit_bind]
    refine (typeName hxy).bind fun name _ _ _ _ hname => ?_
    obtain rfl := hname
    exact .throw _
  · split
    · exact .throw _
    · exact fun h => newType (.array hxy) (.array hxy.lt_size count)
        (.array (h.arenas.lt_size hxy) count) h

theorem arrayOf (hxy : σ.Pairs s.program.arena x y) (count : Int) :
    (bond σ).Abreast s s' (arrayOf x count) (arrayOf y count) (bond σ).Types := by
  refine (need 3).bind fun _ _ t t' first _ => (sizedType (first.paired hxy)).bind
    fun x y u u' _ hxy => ?_
  refine shared (fun h => hxy.number ▸ h.arrays hxy.live count) (newArray hxy count)
    (fun hv hnew => ?_) fun _ _ => rfl
  exact { hv with
      listed := hv.listed
      arrays := fun {z} hz other =>
        rel_get?_put (same_keys hv.arenas.parted hxy.number) (hv.arrays hz other) hnew }

theorem newSignature {name : String} {xs ys : List TypeId} (returns : σ.Pairs s.program.arena x y)
    (parameters : List.Forall₂ (σ.Pairs s.program.arena) xs ys) :
    (bond σ).Abreast s s' (newSignature (.text name) x xs) (newSignature (.text name) y ys)
      (bond σ).Types := by
  refine (need 2).bind fun _ _ t t' onward _ h => ?_
  have parameters := List.Forall₂.imp (fun _ _ => onward.paired) parameters
  have returns := onward.paired returns
  refine newType (.signature returns parameters) ?_ ?_ h
  · exact .signature returns.lt_size ((List.forall₂_and_left _ _).mp
      (parameters.imp fun _ _ hxy => ⟨hxy.lt_size, hxy⟩)).1 name
  · exact .signature (h.arenas.lt_size returns) ((List.forall₂_and_left _ _).mp
      (parameters.flip.imp fun _ _ hxy => ⟨h.arenas.lt_size hxy, hxy⟩)).1 name

theorem addConstants (type : Json) (values : Ledger Json Int) (constants : List (Int × Json)) :
    (bond σ).Abreast s s' (addConstants type values constants) (addConstants type values constants)
      Same := by
  induction constants generalizing s s' values with
  | nil => exact .pure rfl
  | cons e rest ih =>
      obtain ⟨value, name⟩ := e
      simp only [Import.addConstants]
      split
      · exact .throw _
      · split
        · exact (diagnose _ _).bind fun _ _ _ _ _ _ => ih _
        · exact ih _

theorem newEnumeration (name : String) (constants : List (Int × Json)) :
    (bond σ).Makes (newEnumeration (.text name) constants) := fun _ _ =>
  (need 3).bind fun _ _ _ _ _ _ => (addConstants _ _ _).bind fun values _ _ _ _ hvalues => by
    obtain rfl := hvalues
    exact newLeaf rfl rfl fun _ => .enumeration name enumerationSize values

theorem newShell (isRecord : Bool) (sizeBits : Int) (name : String) :
    (bond σ).Makes (newShell isRecord sizeBits (.text name)) := fun _ _ =>
  (need 3).bind fun _ _ _ _ _ _ => newType (.composite rfl rfl) (.shell name _ _) (.shell name _ _)

/-! ### Members -/

theorem edit_editComposite {kind : CompositeKind} {f : Composite → Except Rejection Composite}
    {name : Json} {c : Composite}
    (hx : s.program.arena.get? x = some (.named name (.composite c))) (hkind : c.kind = kind) :
    edit (Program.editComposite kind x f) s =
      match f c with
      | .ok c' => (.ok (), s.withArena (s.program.arena.set x (.named name (.composite c'))))
      | .error cause => (.error (.rejected cause), s) := by
  rw [Program.editComposite, edit_bind, Runs.bind_apply, edit_get]
  dsimp only
  rw [hx]
  dsimp only
  rw [if_neg (not_not_intro hkind)]
  cases f c <;> rfl

theorem edit_editComposite_elsewhere {kind : CompositeKind}
    {f : Composite → Except Rejection Composite}
    (h : ∀ {name c}, s.program.arena.get? x = some (.named name (.composite c)) → c.kind ≠ kind) :
    edit (Program.editComposite kind x f) s = (.error .noSuchPart, s) := by
  rw [Program.editComposite, edit_bind, Runs.bind_apply, edit_get]
  dsimp only
  split
  · next hx =>
      rw [if_pos (h hx)]
      rfl
  · rfl

theorem editComposite {kind : CompositeKind} {m : Component}
    {place : TypeId → Composite → Except Rejection Composite} (hplace : Composite.IsPutting kind m place)
    (named : m.name.isNan = false) {type type' : Nat} (hxy : σ.Pairs s.program.arena x y)
    (htype : σ.Pairs s.program.arena type type') :
    (bond σ).Abreast s s' (edit (Program.editComposite kind x (place type)))
      (edit (Program.editComposite kind y (place type'))) Any := by
  intro h
  obtain ⟨check, long, puts⟩ := hplace
  obtain ⟨t, u, hx, hy, hr⟩ := h.arenas.types x y hxy
  have elsewhere (ht : ∀ {name c}, t = .named name (.composite c) → c.kind ≠ kind)
      (hu : ∀ {name c}, u = .named name (.composite c) → c.kind ≠ kind) :
      (bond σ).Ends s s' Any (edit (Program.editComposite kind x (place type)) s)
        (edit (Program.editComposite kind y (place type')) s') := by
    rw [edit_editComposite_elsewhere fun hc => ht (Option.some.inj (hx.symm.trans hc)),
      edit_editComposite_elsewhere fun hc => hu (Option.some.inj (hy.symm.trans hc))]
    exact .error (.refl h)
  cases hr with
  | leaf _ plain =>
      refine elsewhere (fun ht => ?_) fun ht => ?_ <;> rw [ht] at plain <;> cases plain
  | pointer | array | signature => exact elsewhere nofun nofun
  | @composite name c c' same =>
      by_cases hkind : c.kind = kind
      · rw [edit_editComposite hx hkind, edit_editComposite hy (same ▸ hkind), puts type c hkind,
          puts type' c' (same ▸ hkind)]
        cases hcheck : check with
        | error cause => exact .error (.refl h)
        | ok =>
            have hm : σ.Mirror (s.program.arena.set x (.named name (.composite (c.put { m with type }))))
                (s'.program.arena.set y (.named name (.composite
                  (c'.put (Component.retyped σ.apply { m with type }))))) :=
              h.arenas.putMember hxy hx hy ⟨long hcheck, named⟩ (htype.number ▸ htype)
            rw [Component.retyped, ← htype.number] at hm
            exact .ok (h.withArena hm (Nat.le_of_eq (Arena.size_set _ _ _).symm)) trivial
      · refine elsewhere (fun ht => ?_) fun ht => ?_
        · cases ht
          exact hkind
        · cases ht
          exact same ▸ hkind

variable {shell shell' : Nat}

theorem placeMember (hshell : σ.Pairs s.program.arena shell shell') (hxy : σ.Pairs s.program.arena x y)
    (offset length : Int) (name : String) :
    (bond σ).Abreast s s' (edit (Program.placeMember shell offset x length (.text name)))
      (edit (Program.placeMember shell' offset y length (.text name))) Any :=
  editComposite (Composite.isPutting_placeMember offset x length (.text name)) rfl hshell hxy

theorem placeBits (hshell : σ.Pairs s.program.arena shell shell') (hxy : σ.Pairs s.program.arena x y)
    (offset width bitOffset bitSize : Int) (name : String) :
    (bond σ).Abreast s s' (edit (Program.placeBits shell offset width bitOffset x bitSize (.text name)))
      (edit (Program.placeBits shell' offset width bitOffset y bitSize (.text name))) Any :=
  editComposite (Composite.isPutting_placeBits offset width bitOffset x bitSize (.text name)) rfl
    hshell hxy

theorem addAlternative (hshell : σ.Pairs s.program.arena shell shell')
    (hxy : σ.Pairs s.program.arena x y) (length : Int) (name : String) :
    (bond σ).Abreast s s' (edit (Program.addAlternative shell x length (.text name)))
      (edit (Program.addAlternative shell' y length (.text name))) Any :=
  have given : Json.text name ≠ .null := fun h => Json.noConfusion h
  editComposite (Composite.isPutting_addAlternative x length given) rfl hshell hxy

theorem placeBase (hshell : σ.Pairs s.program.arena shell shell')
    (hxy : σ.Pairs s.program.arena x y) (index : Nat) (offset : Int) :
    (bond σ).Abreast s s' (placeBase shell index offset x) (placeBase shell' index offset y) Any :=
  (typeLength hxy).bind fun length _ _ _ onward hlength => by
    obtain rfl := hlength
    exact placeMember (onward.paired hshell) (onward.paired hxy) offset length _

/-- A member goes into a structure in one way and into a union in another. -/
theorem byKind {record record' other other' : ImportM Unit}
    (hshell : σ.Pairs s.program.arena shell shell')
    (h : (bond σ).Abreast s s' record record' Any) (h' : (bond σ).Abreast s s' other other' Any) :
    (bond σ).Abreast s s'
      (do
        match ← edit (Program.kindOf? shell) with
        | some .record => record
        | _ => other)
      (do
        match ← edit (Program.kindOf? shell') with
        | some .record => record'
        | _ => other') Any := by
  intro hs
  have known (s : Session) (x : TypeId) : edit (Program.kindOf? x) s =
      (.ok ((s.program.arena.composite? x).map (·.kind)), s) := rfl
  have same : (s'.program.arena.composite? shell').map (·.kind) =
      (s.program.arena.composite? shell).map (·.kind) := by
    obtain ⟨t, u, hx, hy, hr⟩ := hs.arenas.types _ _ hshell
    rw [Arena.composite?, Arena.composite?, hx, hy]
    cases hr with
    | composite kind => exact congrArg some kind.symm
    | _ => rfl
  rw [Runs.bind_apply, Runs.bind_apply, known, known, same]
  generalize (s.program.arena.composite? shell).map (·.kind) = kind
  rcases kind with _ | _ | _
  · exact h' hs
  · exact h hs
  · exact h' hs

theorem isVoid (hxy : σ.Pairs s.program.arena x y) :
    (bond σ).Abreast s s' (isVoid x) (isVoid y) Same := by
  refine .get fun h => .pure ?_
  obtain ⟨t, u, hx, hy, hr⟩ := h.arenas.types x y hxy
  rw [hx, hy]
  cases hr with
  | composite => rfl
  | _ => rfl

theorem isZeroLength_eq (h : Mirrors σ s s') (hxy : σ.Pairs s.program.arena x y) :
    s'.program.arena.isZeroLength y = s.program.arena.isZeroLength x := by
  obtain ⟨t, u, hx, hy, hr⟩ := h.arenas.types x y hxy
  rw [Arena.isZeroLength, Arena.isZeroLength, Arena.composite?, Arena.composite?, hx, hy,
    h.arenas.length_eq hxy]
  cases hr with
  | composite _ size => simp only [Option.bind_some, TypeObject.composite?, size]
  | leaf _ plain => rfl
  | _ => rfl

theorem placeBitField (hshell : σ.Pairs s.program.arena shell shell')
    (hxy : σ.Pairs s.program.arena x y) (name : String) (field : Node) (offsetBits : Int) :
    (bond σ).Abreast s s' (placeBitField shell field offsetBits (.text name) x)
      (placeBitField shell' field offsetBits (.text name) y) Any := by
  refine (sizedType hxy).bind fun x y t t' first hxy => ?_
  have hshell : σ.Pairs t.program.arena shell shell' := first.paired hshell
  refine (typeLength hxy).bind fun length _ u u' second hlength => ?_
  obtain rfl := hlength
  exact byKind (second.paired hshell)
    (placeBits (second.paired hshell) (second.paired hxy) _ length _ _ _)
    (addAlternative (second.paired hshell) (second.paired hxy) length _)

theorem placeField (hshell : σ.Pairs s.program.arena shell shell')
    (hxy : σ.Pairs s.program.arena x y) (name : String) (field : Node) :
    (bond σ).Abreast s s' (placeField shell field (.text name) x)
      (placeField shell' field (.text name) y) Any := by
  rw [placeField_eq, placeField_eq]
  have solid : (bond σ).Abreast s s' (do if ← Import.isVoid x then undefined1 else pure x)
      (do if ← Import.isVoid y then undefined1 else pure y) (bond σ).Types := by
    refine (isVoid hxy).bind fun void _ t t' onward hvoid => ?_
    obtain rfl := hvoid
    split
    · exact newUndefined 1 t t'
    · exact .pure (onward.paired hxy)
  refine solid.bind fun x y t t' first hxy => .get fun h => ?_
  have hshell : σ.Pairs t.program.arena shell shell' := first.paired hshell
  have same : memberLength t'.program.arena field y = memberLength t.program.arena field x := by
    rw [memberLength, memberLength, h.arenas.length_eq hxy, h.isZeroLength_eq hxy]
  dsimp only
  rw [same]
  split
  · refine (typeName hxy).bind fun shown _ _ _ _ hshown => ?_
    obtain rfl := hshown
    exact .throw _
  · exact byKind hshell (placeMember hshell hxy _ _ _) (addAlternative hshell hxy _ _)

/-! ### The table -/

theorem prepare : (bond σ).Abreast s s' prepare prepare Any := fun h => by
  rw [prepare_of_isPrepared h.listed.1, prepare_of_isPrepared h.prepared]
  exact .ok (.refl h) trivial

theorem lookUp (r : TypeReference) : (bond σ).Abreast s s' (lookUp r) (lookUp r) Same :=
  prepare.bind fun _ _ t t' _ _ => .get fun h => by
    dsimp only
    rw [h.document]
    split
    · exact .throw _
    · exact .pure rfl

theorem knownEntry (opened : List Nat) (index : Int) :
    (bond σ).Abreast s s' ( knownEntry? opened index) ( knownEntry? opened index) fun o o' t t' =>
      Option.Rel ((bond σ).paired t t') o o' ∧ (o = none → t.typeAt? index.toNat = none) := by
  have placeholder (message : String) {t t' : Session} :
      (bond σ).Abreast t t' (do Import.diagnose typesSource message; return some (← undefined1))
        (do Import.diagnose typesSource message; return some (← undefined1)) fun o o' t t' =>
          Option.Rel ((bond σ).paired t t') o o' ∧ (o = none → t.typeAt? index.toNat = none) :=
    (diagnose _ _).bind fun _ _ u u' _ _ => (newUndefined 1 u u').bind fun _ _ _ _ _ hxy =>
      .pure ⟨.some hxy, nofun⟩
  refine prepare.bind fun _ _ t t' _ _ => .get fun h => ?_
  dsimp only
  rw [h.tables]
  split
  · exact placeholder _
  · have unset (hnone : t.typeAt? index.toNat = none) : (bond σ).Abreast t t'
        (if opened.contains index.toNat then do
            Import.diagnose typesSource s!"Type {index} refers to itself, using undefined1"
            return some (← undefined1)
          else return none)
        (if opened.contains index.toNat then do
            Import.diagnose typesSource s!"Type {index} refers to itself, using undefined1"
            return some (← undefined1)
          else return none) fun o o' t t' =>
            Option.Rel ((bond σ).paired t t') o o' ∧ (o = none → t.typeAt? index.toNat = none) := by
      split
      · exact placeholder _
      · exact .pure ⟨.none, fun _ => hnone⟩
    have same := h.entries index.toNat
    unfold Session.typeAt? at same unset
    revert unset same
    rcases t.table[index.toNat]? with _ | _ | x <;> rcases t'.table[index.toNat]? with _ | _ | y <;>
      intro unset same
    case some.some.some.some => exact .pure ⟨same, nofun⟩
    all_goals first | exact unset rfl | cases same

theorem concord : Concord (bond σ) True where
  wellTyped h _ := h.typed
  documentTypes h := by rw [h.document]
  room h := h.room'.trans h.room.symm
  enter h calls _ :=
    have inside := congrArg (Room.inside · calls) h.room
    Mirrors.onward { h with room := inside, room' := inside, listed := h.listed } rfl
  leave h ht := Mirrors.onward { ht with room := h.room, room' := h.room, listed := ht.listed } rfl
  report h _ := Mirrors.onward { h with listed := h.listed } rfl
  lookUp := lookUp
  knownEntry := knownEntry
  setEntry hxy k := .modify fun h => (h.setEntry hxy k).onward rfl
  cached serial := .get fun h => .pure (h.nodes serial)
  cacheNode hxy serial := .modify fun h => (h.cacheNode hxy serial).onward rfl
  typeName := typeName
  pointerSize := sameSize
  newUndefined := newUndefined
  sizedType := sizedType
  builtIn := builtIn
  pointerTo := pointerTo
  arrayOf hxy count := arrayOf hxy count
  newSignature hname returns parameters := by
    obtain ⟨name, rfl⟩ := hname trivial
    exact newSignature returns parameters
  newEnumeration hname constants := by
    obtain ⟨name, rfl⟩ := hname trivial
    exact newEnumeration name constants
  newShell hname isRecord sizeBits := by
    obtain ⟨name, rfl⟩ := hname trivial
    exact newShell isRecord sizeBits name
  placeBase := placeBase
  placeField hshell hxy hname field := by
    obtain ⟨name, rfl⟩ := hname trivial
    exact placeField hshell hxy name field
  placeBitField hshell hxy hname field offsetBits := by
    obtain ⟨name, rfl⟩ := hname trivial
    exact placeBitField hshell hxy name field offsetBits
  register entry nominal unset _ _ h := absurd unset (h.listed.2 _ ⟨_, entry, nominal⟩)

end Mirrors

end Import

end StabsImport

import StabsImport.Proofs.Described
import StabsImport.Proofs.Gains

/-!
# What the operations of resolution do

Every operation that resolution is made of leads from a sound session to one after it, given the
room it asks for. What it makes is known to the last detail.
-/

namespace StabsImport

namespace Extent

theorem sized_eq_iff (e : Extent) : e.sized = e ↔ 0 < e.length := by
  constructor
  · intro h
    rw [← h]
    exact e.length_sized_pos
  · intro h
    exact if_neg (Int.not_le.mpr h)

theorem solid_eq_iff (e : Extent) : e.solid = e ↔ e ≠ .void := by
  unfold solid
  split
  · next h => simp [h]
  · next h => simp [h]

end Extent

namespace Import

open Document (Node BuiltInClass)

variable {α β : Type} {L : Scope} {s s' : Session} {ok : α → Session → Prop}
  {bad : Fault → Session → Prop}

/-- All that is there of the types: every type, finished or not, and the entries that have one. -/
def Session.all (s : Session) : View where
  holds id t := s.program.arena.get? id = some t
  entry k id := s.typeAt? k = some id

theorem Gains.within (h : Gains s s') : s.all.Within s'.all where
  holds hg := h.kept hg
  entry he := (h.entry _).trans he

/-! ## New types -/

theorem isPlain_builtInType (a : Arena) (c : BuiltInClass) : a.IsPlain (builtInType c) where
  links l hl := by cases c <;> cases hl
  placed h := by cases c <;> cases h
  texts h := by cases c <;> cases h <;> exact ⟨_, rfl⟩

theorem extent_undefinedOf {a : Arena} {id : TypeId} {size : Int}
    (h : a.get? id = some (.undefinedOf size)) : a.extent id = .plain size :=
  Arena.extent_named h

namespace Session.Sound

/-- The number of a new type is the number of types before. -/
theorem newType (hs : s.Sound) {t : TypeObject} (ht : s.program.arena.IsPlain t) :
    Yields L (edit (Program.newType t)) s
      (fun id s' => id = s.program.arena.size ∧ s' = s.push t) bad :=
  ⟨After.push hs ht, rfl, rfl⟩

theorem undefined1 (hs : s.Sound) :
    Yields L undefined1 s
      (fun id s' => id = s.program.arena.size ∧ s' = s.push (.undefinedOf 1)) bad :=
  hs.newType (.undefined 1)

/-- The size of an undefined type must be positive. -/
theorem newUndefined (hs : s.Sound) (size : Int) :
    Yields L (edit (Program.newUndefined size)) s
      (fun id s' => 1 ≤ size ∧ s'.program.arena.get? id = some (.undefinedOf size))
      fun e _ => e.isTypeFault = true ∧ size < 1 := by
  unfold Program.newUndefined
  by_cases h : size < 1
  · rw [if_pos h]
    exact ⟨.refl hs, rfl, h⟩
  · rw [if_neg h]
    refine (hs.newType (.undefined size)).mono ?_ fun _ _ _ h => h
    rintro _ _ - ⟨rfl, rfl⟩
    exact ⟨Int.not_lt.mp h, get?_push s _⟩

/-- What is used in place of a type is that type, if it has a length. -/
theorem sizedType (hs : s.Sound) (id : TypeId) :
    Yields L (edit (Program.sizedType (some id))) s
      (fun id' s' => Gains s s' ∧
        s'.all.StandsFor (s.program.arena.extent id) (s.program.arena.extent id).sized id id' ∧
        s'.program.arena.extent id' = (s.program.arena.extent id).sized) bad := by
  have hl := s.program.arena.length_extent id
  have hsized := (s.program.arena.extent id).sized_eq_iff
  rw [hl] at hsized
  rw [Yields, Runs, edit_sizedType]
  by_cases h : s.program.arena.length id ≤ 0
  · rw [if_pos h]
    have hne : (s.program.arena.extent id).sized ≠ s.program.arena.extent id := fun he =>
      Int.not_lt.mpr h (hsized.mp he)
    have hg := get?_push s (.undefinedOf 1)
    have hext : (s.push (.undefinedOf 1)).program.arena.extent s.program.arena.size =
        (s.program.arena.extent id).sized := by
      rw [extent_undefinedOf hg, Extent.sized, hl, if_pos h]
    refine ⟨After.push hs (.undefined 1), Preserves.undefined1 s, ?_, hext⟩
    rw [View.StandsFor, if_neg hne]
    exact hg
  · rw [if_neg h]
    have he := hsized.mpr (Int.not_le.mp h)
    refine ⟨.refl hs, .refl s, ?_, he.symm⟩
    rw [View.StandsFor, if_pos he]

/-- An element that has a size is refused only for a negative count. -/
theorem newArray (hs : s.Sound) {element : TypeId} (h : 0 < s.program.arena.length element)
    (count : Int) :
    Yields L (edit (Program.newArray element count)) s
      (fun id s' => 0 ≤ count ∧ id = s.program.arena.size ∧ s' = s.push (.array element count))
      fun e _ => e.isTypeFault = true ∧ count < 0 := by
  have hlt := Arena.lt_size_of_length_pos h
  have heq : Program.newArray element count s.program =
      (if s.program.arena.length element ≤ 0 then do
        Program.reject (.elementWithoutSize (← Program.typeName element))
      else if count < 0 then Program.reject .negativeCount
      else Program.newType (.array element count) : Edit TypeId) s.program := rfl
  rw [if_neg (Int.not_le.mpr h)] at heq
  simp only [Yields, Runs, edit, heq]
  by_cases hc : count < 0
  · rw [if_pos hc]
    exact ⟨.refl hs, rfl, hc⟩
  · rw [if_neg hc]
    exact ⟨After.push hs (.array hlt count), Int.not_lt.mp hc, rfl, rfl⟩

theorem builtIn (hs : s.Sound) (hr : s.room.allows 3 = true) (c : BuiltInClass) :
    Yields L (builtIn c) s
      (fun id s' => s'.program.arena.get? id = some (builtInType c)) bad := by
  refine (Yields.need hs hr).bind ?_
  rintro _ s' - rfl
  refine Yields.get ?_
  split
  · next id hc => exact .pure hs (hs.builtIns hc)
  · next hc =>
      refine (hs.newType (isPlain_builtInType _ c)).bind ?_
      rintro _ _ ha ⟨rfl, rfl⟩
      have hg := get?_push s' (builtInType c)
      refine (Yields.modify (P := fun _ t => t.program.arena.get? _ = _)
        (After.cacheBuiltIn ha.sound hc hg) hg).bind ?_
      intro _ t ht hg
      exact .pure ht.sound hg

/-- There is one pointer to a type. -/
theorem pointerTo (hs : s.Sound) (hr : s.room.allows 3 = true) {target : TypeId}
    (ht : target < s.program.arena.size) :
    Yields L (pointerTo target) s (fun id s' =>
      s'.program.arena.get? id = some (.pointer target s.program.pointerSize)) bad := by
  refine (Yields.need hs hr).bind ?_
  rintro _ s' - rfl
  refine (Yields.pointerSize hs).bind ?_
  rintro _ t - ⟨rfl, rfl⟩
  refine Yields.get ?_
  split
  · next id hc => exact .pure hs (hs.pointers hc)
  · next hc =>
      refine (hs.newType (.pointer ht _)).bind ?_
      rintro _ _ ha ⟨rfl, rfl⟩
      have hg := get?_push t (.pointer target t.program.pointerSize)
      refine (Yields.modify (P := fun _ t => t.program.arena.get? _ = _)
        (After.cachePointer ha.sound hc hg) hg).bind ?_
      intro _ t ht hg
      exact .pure ht.sound hg

/-- There is one array of a count of elements. -/
theorem arrayOf (hs : s.Sound) (hr : s.room.allows 3 = true) (element : TypeId) (count : Int) :
    Yields L (arrayOf element count) s
      (fun id s' => ∃ el, s'.program.arena.get? id = some (.array el count) ∧ 0 ≤ count ∧
        s'.all.StandsFor (s.program.arena.extent element) (s.program.arena.extent element).sized
          element el)
      fun e _ => e.isTypeFault = true ∧ count < 0 := by
  refine (Yields.need hs hr).bind ?_
  rintro _ s' - rfl
  refine (hs.sizedType element).bind ?_
  rintro el t ha ⟨-, hel, hext⟩
  have hs := ha.sound
  refine Yields.get ?_
  split
  · next id hc => exact .pure hs ⟨el, (hs.arrays hc).1, (hs.arrays hc).2, hel⟩
  · next hc =>
      have hl : 0 < t.program.arena.length el := by
        rw [← Arena.length_extent, hext]
        exact Extent.length_sized_pos _
      refine (hs.newArray hl count).bind ?_
      rintro _ _ ha ⟨hcount, rfl, rfl⟩
      have hg := get?_push t (.array el count)
      have hel := hel.mono (Gains.within (Preserves.newType (.array el count) t))
      refine (Yields.modify (P := fun _ u => u.program.arena.get? _ = _ ∧ u.all.StandsFor _ _ _ _)
        (After.cacheArray ha.sound hc hg hcount) ⟨hg, hel⟩).bind ?_
      intro _ u hu hg
      exact .pure hu.sound ⟨el, hg.1, hcount, hg.2⟩

end Session.Sound

/-! ## Reports and names -/

theorem Yields.diagnose (hs : s.Sound) (hr : s.room.allows reportingCalls = true)
    {source message : String} (h : IsLoopNotice (.diagnostic source message) → L.cuts) :
    Yields L (diagnose source message) s
      (fun _ s' => s' = { s with journal := s.journal.push (.diagnostic source message) }) bad := by
  refine (Yields.need hs hr).bind ?_
  rintro _ t - rfl
  exact .modify (After.report hs h) rfl

theorem plainName_named {a : Arena} (room : a.room = none) {id : TypeId} {name : Json}
    {shape : Shape} (h : a.get? id = some (.named name shape)) : a.plainName id = .ok name.plain := by
  simp [Arena.plainName, Arena.name, Arena.reach, room, Arena.nameWithin, h, Except.map]

namespace Session.Sound

theorem typeName (hs : s.Sound) (id : TypeId) :
    Yields L (typeName id) s (fun shown s' => s' = s ∧ ∀ {name shape},
      s.program.arena.get? id = some (.named name shape) → shown = name.plain) bad := by
  obtain ⟨shown, hn⟩ := hs.program.arena.plainName_ok hs.naming id
  simp only [Yields, Import.typeName, Program.typeName, runs_edit, Program.runs_view, hn]
  refine ⟨.refl hs, trivial, fun {name shape} hg => ?_⟩
  rw [plainName_named hs.naming hg] at hn
  cases hn
  rfl

theorem typeLength (hs : s.Sound) (id : TypeId) :
    Yields L (typeLength id) s (fun n s' => n = s.program.arena.length id ∧ s' = s) bad :=
  ⟨.refl hs, rfl, rfl⟩

theorem isVoid (hs : s.Sound) (id : TypeId) :
    Yields L (isVoid id) s
      (fun b s' => s' = s ∧ (b = true ↔ s.program.arena.extent id = .void)) bad := by
  refine .get (.pure hs ⟨rfl, ?_⟩)
  unfold Arena.extent
  cases s.program.arena.get? id with
  | none => simp
  | some t =>
      cases t with
      | named name shape => cases shape <;> simp [Shape.extent]
      | _ => simp

theorem cached? (hs : s.Sound) (serial : Nat) :
    Yields L (cached? serial) s (fun r s' => r = s.cache.nodes.get? serial ∧ s' = s) bad :=
  ⟨.refl hs, rfl, rfl⟩

theorem cacheNode (hs : s.Sound) {id : TypeId} (hid : id < s.program.arena.size)
    (serial : Nat) :
    Yields L (cacheNode serial id) s
      (fun _ s' => s' = { s with cache.nodes := s.cache.nodes.put serial id }) bad :=
  .modify (After.cacheNode hs hid) rfl

theorem reportBase (hs : s.Sound) (hr : s.room.allows reportingCalls = true) (shell : TypeId)
    (index : Nat) (e : Fault) : Yields L (reportBase shell index e) s (fun _ _ => True) bad := by
  refine (hs.typeName shell).bind ?_
  rintro _ t - ⟨rfl, -⟩
  refine (Yields.diagnose hs hr fun h => absurd h (not_isLoopNotice_of_head ?_)).mono
    (fun _ _ _ _ => trivial) fun _ _ _ h => h
  simp [toString, String.toList_append]

theorem reportField (hs : s.Sound) (hr : s.room.allows reportingCalls = true) (shell : TypeId)
    (name : Json) (e : Fault) : Yields L (reportField shell name e) s (fun _ _ => True) bad := by
  refine (hs.typeName shell).bind ?_
  rintro _ t - ⟨rfl, -⟩
  refine (Yields.diagnose hs hr fun h => absurd h (not_isLoopNotice_of_head ?_)).mono
    (fun _ _ _ _ => trivial) fun _ _ _ h => h
  simp [toString, String.toList_append]

theorem prepare (hs : s.Sound) :
    Yields L prepare s (fun _ s' => s'.isPrepared = true ∧ Gains s s') bad := by
  refine Yields.get ?_
  split
  · next h => exact .pure hs ⟨h, .refl s⟩
  · next h =>
      have hk : (s.document.types.any fun n => !n.name.isKey) = false := by
        rw [List.any_eq_false]
        intro n hn
        simp [(hs.typed.types n hn).typed.name.isKey]
      have hp : s.isPrepared = false := by simpa using h
      have unset : s.IsFresh := Session.isFresh_of_table (hs.unprepared hp)
      simp only [hk, Bool.false_eq_true, if_false]
      refine ⟨After.prepare hs hp, rfl, rfl, rfl, fun h => h, rfl, fun k => ?_, rfl,
        List.prefix_rfl⟩
      rw [unset]
      exact Session.typeAt?_replicate s _ k

theorem addConstants (hs : s.Sound) (hr : s.room.allows reportingCalls = true) (type : Json)
    {constants : List (Int × Json)} (hc : ∀ k ∈ constants, k.2.IsName)
    (values : Ledger Json Int) :
    Yields L (addConstants type values constants) s
      (fun l _ => l = constants.foldl (fun l k => if l.contains k.2 then l else l.put k.2 k.1) values)
      bad := by
  induction constants generalizing s values with
  | nil => exact .pure hs rfl
  | cons k rest ih =>
      obtain ⟨value, name⟩ := k
      have hname : name.isKey = true := (hc _ List.mem_cons_self).isKey
      have hrest : ∀ k ∈ rest, k.2.IsName := fun k hk => hc k (List.mem_cons_of_mem _ hk)
      simp only [Import.addConstants, hname, Bool.not_true, Bool.false_eq_true, if_false,
        List.foldl_cons]
      split
      · refine Yields.bind (.diagnose hs hr fun h => absurd h (not_isLoopNotice_of_head ?_)) ?_
        · simp [toString, String.toList_append]
        · intro _ t ht _
          exact ih ht.sound (by rw [ht.room]; exact hr) hrest _
      · exact ih hs hr hrest _

end Session.Sound

/-! ## Registration -/

/-- What a session is with one type more, which is registered. -/
def Session.register (s : Session) (own : String) (shape : Shape) : Session :=
  { s with
    program := { s.program with
      arena := s.program.arena.push (.named (.text own) shape)
      registry := s.program.registry.put (.text own) s.program.arena.size } }

/-- Makes a type and registers it. -/
def addNew (t : TypeObject) : ImportM TypeId := do
  edit (Program.addType (← edit (Program.newType t)))

/-- The type is the first under the names in turn that will do for a new one, or it is the new one,
registered under the first name that is free. -/
def Session.Registers (s : Session) (name : String) (shape : Shape) (id : TypeId)
    (s' : Session) : Prop :=
  let pushed := s.push (.named (.text name) shape)
  ∃ n, (∀ m < n, pushed.program.IsBarred s.program.arena.size (Program.nameInTurn name m)) ∧
    (s.program.registry.get? (.text (Program.nameInTurn name n)) = some id ∧
        pushed.program.arena.canReuse id s.program.arena.size = .ok true ∧ s' = pushed ∨
      s.program.registry.get? (.text (Program.nameInTurn name n)) = none ∧
        id = s.program.arena.size ∧ s' = s.register (Program.nameInTurn name n) shape)

/-- A type the name of which is free is registered under that name. -/
theorem Session.Registers.of_free {name : String} {shape : Shape} {id : TypeId}
    (h : s.Registers name shape id s') (free : s.program.registry.get? (.text name) = none) :
    id = s.program.arena.size ∧ s' = s.register name shape := by
  obtain ⟨n, barred, h⟩ := h
  cases n with
  | zero =>
      rcases h with ⟨taken, -⟩ | ⟨-, h⟩
      · exact absurd taken (by rw [Program.nameInTurn, free]; nofun)
      · exact h
  | succ n =>
      obtain ⟨other, taken, -⟩ := barred 0 (Nat.succ_pos n)
      exact absurd (free.symm.trans taken) nofun

namespace Session.Sound

/-- The type registered is the new one, or one that will do for it. -/
theorem addNew (hs : s.Sound) {name : String} {shape : Shape} {n : Node}
    (ht : s.program.arena.IsPlain (.named (.text name) shape)) (fits : n.Fits shape)
    (reuse : ∀ {x}, (s.push (.named (.text name) shape)).program.arena.canReuse x
        s.program.arena.size = .ok true →
      ∃ own shape', (s.push (.named (.text name) shape)).program.arena.get? x =
        some (.named own shape') ∧ n.Fits shape') :
    Yields L (addNew (.named (.text name) shape)) s
      (fun id s' => s'.IsRegistered n id ∧ s.Registers name shape id s') bad := by
  let pushed := s.push (.named (.text name) shape)
  have ha : After L s pushed := .push hs ht
  have hg : pushed.program.arena.get? s.program.arena.size = some (.named (.text name) shape) :=
    get?_push s _
  have unplaced (k : Json) : s.program.registry.get? k ≠ some s.program.arena.size :=
    fun h => Nat.lt_irrefl _ (hs.program.lt_size h)
  rw [Yields, Import.addNew, Runs.bind_iff]
  show Runs (edit (Program.addType s.program.arena.size)) pushed _ _
  rw [runs_edit]
  refine Program.runs_addType ha.sound.program ha.sound.naming hg unplaced ?_ ?_
  · intro k other barred hc hr
    obtain ⟨own, shape', hx, hf⟩ := reuse hr
    refine ⟨ha, ⟨own, shape', hx, hf, ?_⟩, k, barred, .inl ⟨hc, hr, rfl⟩⟩
    rw [ha.sound.program.own hc hx]
    exact hc
  · intro k barred free
    let own := Program.nameInTurn name k
    have heq : pushed.program.registered s.program.arena.size own shape =
        (s.register own shape).program := by
      simp only [pushed, Session.push, Session.register, Program.registered, Arena.set_push_self]
    rw [heq]
    refine ⟨.register hs (ht.named own) free, ⟨.text own, shape, ?_, fits, ?_⟩,
      k, barred, .inr ⟨free, rfl, rfl⟩⟩
    · exact Arena.get?_push_self _ _
    · exact Ledger.get?_put_self _ _ _

theorem newEnumeration (hs : s.Sound) (hr : s.room.allows reportingCalls = true) (name : String)
    {constants : List (Int × Json)} (hc : ∀ k ∈ constants, k.2.IsName) :
    Yields L (newEnumeration (.text name) constants) s (fun id s' =>
      s'.program.arena.get? id =
        some (.named (.text name) (.enumeration enumerationSize (constantsOf constants)))) bad := by
  refine (Yields.need hs (Room.allows_of_le hr (by decide))).bind ?_
  rintro _ t - rfl
  refine (hs.addConstants hr _ hc {}).bind ?_
  rintro _ t ht rfl
  refine (ht.sound.newType (.enumeration name _ _)).mono ?_ fun _ _ _ h => h
  rintro _ _ - ⟨rfl, rfl⟩
  exact get?_push t _

theorem addEnumeration (hs : s.Sound) (hr : s.room.allows reportingCalls = true) (name : String)
    (c : Document.Common) {constants : List (Int × Json)}
    (hc : ∀ k ∈ constants, k.2.IsName) :
    Yields L (do edit (Program.addType (← Import.newEnumeration (.text name) constants))) s
      (fun id s' => s'.IsRegistered (.enumeration c constants) id ∧ ∃ t, Gains s t ∧
        t.Registers name (.enumeration enumerationSize (constantsOf constants)) id s') bad := by
  simp only [Import.newEnumeration, bind_assoc]
  refine (Yields.need hs (Room.allows_of_le hr (by decide))).bind ?_
  rintro _ t - rfl
  refine ((hs.addConstants hr _ hc {}).gains_ok (Preserves.addConstants _ _ _)).bind ?_
  rintro _ t ht ⟨hg, rfl⟩
  have hf : (Node.enumeration c constants).Fits
      (.enumeration enumerationSize (constantsOf constants)) := trivial
  refine (ht.sound.addNew (.enumeration name _ _) hf fun hx => ?_).mono ?_ fun _ _ _ h => h
  · obtain ⟨own, values', hx, _⟩ := Arena.canReuse_enumeration (get?_push t _) hx
    exact ⟨own, _, hx, trivial⟩
  · rintro id u - ⟨hreg, h⟩
    exact ⟨hreg, t, hg, h⟩

theorem newShell (hs : s.Sound) (hr : s.room.allows 3 = true) (isRecord : Bool)
    (sizeBits : Int) (name : String) :
    Yields L (newShell isRecord sizeBits (.text name)) s (fun id s' =>
      id = s.program.arena.size ∧ s' = s.push (.named (.text name)
        (.composite (.empty (kindOf isRecord) (declaredBytes sizeBits))))) bad := by
  refine (Yields.need hs hr).bind ?_
  rintro _ t - rfl
  exact hs.newType (.shell name _ _)

theorem addShell (hs : s.Sound) (hr : s.room.allows 3 = true) (c : Document.Common)
    (isRecord : Bool) (bases : List Document.Base) (fields members : List Node) (name : String) :
    Yields L (do edit (Program.addType (← Import.newShell isRecord c.sizeBits (.text name)))) s
      (fun id s' => s'.IsRegistered (.composite c isRecord bases fields members) id ∧
        s.Registers name (.composite (.empty (kindOf isRecord) (declaredBytes c.sizeBits))) id s')
      bad := by
  simp only [Import.newShell, bind_assoc]
  refine (Yields.need hs hr).bind ?_
  rintro _ t - rfl
  refine hs.addNew (.shell name _ _) rfl fun hx => ?_
  obtain ⟨d, hx, hk, -⟩ :=
    (Arena.canReuse_shell (Arena.composite?_eq_some.mpr ⟨_, get?_push t _⟩)).mp hx
  obtain ⟨own, hx⟩ := Arena.composite?_eq_some.mp hx
  exact ⟨own, _, hx, hk⟩

theorem newSignature (hs : s.Sound) (hr : s.room.allows 2 = true) (name : String)
    {returns : TypeId} {parameters : List TypeId} (hret : returns < s.program.arena.size)
    (hp : ∀ id ∈ parameters, id < s.program.arena.size) :
    Yields L (newSignature (.text name) returns parameters) s (fun id s' =>
      s'.program.arena.get? id =
        some (.named (.text name) (.signature returns parameters))) bad := by
  refine (Yields.need hs hr).bind ?_
  rintro _ t - rfl
  refine (hs.newType (.signature hret hp name)).mono ?_ fun _ _ _ h => h
  rintro _ _ - ⟨rfl, rfl⟩
  exact get?_push t _

theorem lookUp (hs : s.Sound) {r : Document.TypeReference} (hr : r.typeName.IsName) :
    Yields L (lookUp r) s
      (fun i s' => i = entryOf? s.document r ∧ Gains s s') bad := by
  refine hs.prepare.bind ?_
  rintro _ t ht ⟨-, hg⟩
  refine Yields.get ?_
  simp only [hr.isKey, Bool.not_true, Bool.and_false, Bool.false_and, Bool.false_eq_true, if_false]
  exact .pure ht.sound ⟨by rw [ht.document], hg⟩

end Session.Sound

end Import

end StabsImport

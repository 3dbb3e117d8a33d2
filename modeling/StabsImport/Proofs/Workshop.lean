import StabsImport.Proofs.Catalogue
import StabsImport.Proofs.Cycles
import StabsImport.Proofs.Groundwork

/-!
# Importers and callers at work on one program

A program is worked on by any number of importers, each with its table and its caches, and by
callers who make, fill and register types of their own, all in turn. Types refer to each other in
circles then, but no circle is closed without a structure or union, so whatever is asked of a type
is answered. Main statement: `performAll_unwinds`.
-/

namespace StabsImport

open Document (Node Base)

variable {p : Program}

/-! ## Edits of types -/

/-- Gives an enumeration one more constant. -/
def Program.addConstant (id : TypeId) (name : String) (value : Int) : Edit Unit := do
  match (← get).arena.get? id with
  | some (.named own (.enumeration size values)) =>
      if values.contains (.text name) then reject (.repeatedConstant name)
      setType id (.named own (.enumeration size (values.put (.text name) value)))
  | _ => throw .noSuchPart

theorem Program.addConstant_grounds (id : TypeId) (name : String) (value : Int) :
    p.Grounds (addConstant id name value) fun _ _ => True := by
  intro hp
  rw [addConstant, Runs.bind_iff, Runs.get_iff]
  split
  · next own size values hid =>
      dsimp only
      split
      · exact .refl hp
      · refine ⟨hp.set (hp.arena.set nofun nofun ?_), trivial⟩
        intro name' shape he
        cases he
        exact hp.arena.texts hid
  · exact .refl hp

/-- What a caller may do to the types of a program. What a pointer, an array or a signature is made
of is given when it is made. -/
inductive TypeEdit where
  | void
  | undefined (size : Int)
  | builtIn (name : String) (size : Int) (signed isFloat isBool : Bool)
  | pointer (target : TypeId) (size : Int)
  | array (element : TypeId) (count : Int)
  | signature (name : String) (returns : TypeId) (parameters : List TypeId)
  | enumeration (name : String) (size : Int)
  | composite (kind : CompositeKind) (name : String) (size : Int)
  | constant (owner : TypeId) (name : String) (value : Int)
  | place (owner : TypeId) (call : Placement)
  | offer (owner type : TypeId) (length : Int) (name : Json)
  | sized (type : TypeId)
  | register (type : TypeId)

namespace TypeEdit

/-- The types that the edit speaks of. -/
def uses : TypeEdit → List TypeId
  | void | undefined .. | builtIn .. | enumeration .. | composite .. => []
  | pointer target _ => [target]
  | array element _ => [element]
  | signature _ returns parameters => returns :: parameters
  | constant owner .. => [owner]
  | place owner call => [owner, call.component.type]
  | offer owner type .. => [owner, type]
  | sized type | register type => [type]

def edit : TypeEdit → Edit Unit
  | void => discard (Program.newType .voidType)
  | undefined size => discard (Program.newUndefined size)
  | builtIn name size signed isFloat isBool =>
      discard (Program.newType (.named (.text name) (.builtIn size signed isFloat isBool)))
  | pointer target size => discard (Program.newType (.pointer target size))
  | array element count => discard (Program.newArray element count)
  | signature name returns parameters =>
      discard (Program.newType (.named (.text name) (.signature returns parameters)))
  | enumeration name size =>
      discard (Program.newType (.named (.text name) (.enumeration size {})))
  | composite kind name size => discard (Program.newComposite kind (.text name) size)
  | constant owner name value => Program.addConstant owner name value
  | place owner call => call.edit owner
  | offer owner type length name => Program.addAlternative owner type length name
  | sized type => discard (Program.sizedType (some type))
  | register type => discard (Program.addType type)

theorem edit_grounds {e : TypeEdit} (h : ∀ id ∈ e.uses, id < p.arena.size) :
    p.Grounds e.edit fun _ _ => True := by
  have made {m : Edit TypeId} {ok : TypeId → Arena → Prop} (h : p.Grounds m ok) :
      p.Grounds (discard m) fun _ _ => True := fun hp => by
    show Runs (m >>= fun _ => pure ()) p _ _
    rw [Runs.bind_iff]
    exact Runs.mono (h hp) (fun _ _ h => ⟨h.1, trivial⟩) fun _ _ h => h
  cases e with
  | void => exact made (Program.newType_grounds (Import.isPlain_builtInType p.arena .void))
  | undefined size => exact made (Program.newUndefined_grounds size)
  | builtIn name size signed isFloat isBool =>
      exact made (Program.newType_grounds (.builtIn name size signed isFloat isBool))
  | pointer target size =>
      exact made (Program.newType_grounds (.pointer (h target (by simp [uses])) size))
  | array element count => exact made (Program.newArray_grounds (h element (by simp [uses])) count)
  | signature name returns parameters =>
      exact made (Program.newType_grounds (.signature (h returns List.mem_cons_self)
        (fun id hid => h id (List.mem_cons_of_mem _ hid)) name))
  | enumeration name size => exact made (Program.newType_grounds (.enumeration name size _))
  | composite kind name size => exact made (Program.newType_grounds (.shell name kind size))
  | constant owner name value => exact Program.addConstant_grounds _ _ _
  | place owner call =>
      rw [edit, Placement.edit_eq]
      exact Program.editComposite_grounds _ _ call.isPlacement (h _ (by simp [uses]))
  | offer owner type length name =>
      exact Program.editComposite_grounds _ _ (isPlacement_addAlternative type length name)
        (h type (by simp [uses]))
  | sized type => exact made (Program.sizedType_grounds (h type (by simp [uses])))
  | register type => exact made (Program.addType_grounds (h type (by simp [uses])))

end TypeEdit

/-! ## Work of an importer -/

/-- What an importer may be asked for. -/
inductive ImporterTask where
  | lookUp (node : Option Node)
  | types
  | functions
  | globals
  | entry (index : Int)
  | node (node : Option Node) (hint : Json)
  | variable_ (node : Option Node)
  | pointer (target : TypeId)
  | fill (shell : TypeId) (common : Document.Common) (isRecord : Bool) (bases : List Base)
      (fields members : List Node)

namespace ImporterTask

open Import

def run : ImporterTask → ImportM Unit
  | lookUp n => discard (lookUpNode n)
  | types => importTypes
  | functions => importFunctions
  | globals => importGlobals
  | entry index => discard (typeAt index)
  | node n hint => discard (optionalTypeOf n hint)
  | variable_ n => discard (variableTypeOf n)
  | pointer target => do
      if target < (← get).program.arena.size then discard (pointerTo target)
  | fill shell _ isRecord bases fields _ => Import.fill typeAt shell isRecord bases fields

/-- Names in what is asked for are texts or missing. -/
def IsTyped : ImporterTask → Prop
  | node n hint => (∀ k ∈ n, k.WellTyped) ∧ hint.IsName
  | variable_ n => ∀ k ∈ n, k.WellTyped
  | fill _ common isRecord bases fields members =>
      (Node.composite common isRecord bases fields members).WellTyped
  | _ => True

theorem lookUpNode_staysGrounded (node : Option Node) : StaysGrounded (lookUpNode node) := by
  refine grounded_supply.prepare.bind fun _ => ?_
  split
  · exact grounded_supply.lookUp _
  · exact .throw _

theorem run_staysGrounded {task : ImporterTask} (typed : task.IsTyped) :
    StaysGrounded task.run := by
  have discarded {α : Type} {m : ImportM α} (h : StaysGrounded m) : StaysGrounded (discard m) :=
    h.bind fun _ => .pure _
  cases task with
  | lookUp n => exact discarded (lookUpNode_staysGrounded n)
  | types => exact grounded_supply.importTypes
  | functions => exact importFunctions_staysGrounded
  | globals => exact importGlobals_staysGrounded
  | entry index => exact discarded (grounded_supply.typeAt index).preserves
  | node n hint =>
      cases n with
      | none => exact discarded (.throw _)
      | some n =>
          exact discarded (grounded_supply.typeOf (fun _ => typed.1 n rfl) fun _ =>
            typed.2).preserves
  | variable_ n => 
      exact discarded (Secures.preserves fun _ => grounded_supply.variableTypeOf fun _ => typed)
  | pointer target =>
      refine Secures.preserves (P := fun _ _ => True) fun s => .get ?_
      split
      · next h => exact (pointerTo_hands h).bind fun _ _ _ _ => .pure trivial
      · exact .pure trivial
  | fill shell common isRecord bases fields members =>
      exact grounded_supply.fillNode grounded_supply.typeAt shell fun _ => typed

end ImporterTask

namespace Import

/-- The type is in the table of the session or is shared in it. -/
def Session.Holds (s : Session) (id : TypeId) : Prop :=
  (∃ k, s.typeAt? k = some id) ∨ (∃ c, s.cache.builtIns.get? c = some id) ∨
    (∃ k, s.cache.pointers.get? k = some id) ∨ (∃ k, s.cache.arrays.get? k = some id) ∨
    ∃ k, s.cache.nodes.get? k = some id

theorem Session.Grounded.lt_size {s : Session} {p : Program} {id : TypeId}
    (h : Session.Grounded { s with program := p }) (hid : s.Holds id) : id < p.arena.size := by
  rcases hid with ⟨k, hk⟩ | ⟨c, hc⟩ | ⟨k, hk⟩ | ⟨k, hk⟩ | ⟨k, hk⟩
  · exact h.entries hk
  · exact h.builtIns hc
  · exact h.pointers hk
  · exact h.arrays hk
  · exact h.nodes hk

end Import

/-! ## All of them in turn -/

/-- A program and the importers at work on it, each as it was left. -/
structure Workshop where
  program : Program
  importers : List Import.Session := []

inductive Action where
  | edit (e : TypeEdit)
  /-- From now on names are told with so much room. -/
  | limit (room : Room)
  /-- Another importer takes up a document. -/
  | begin_ (document : Document) (options : Options := {}) (knowsPointerSize : Bool := true)
  | work (importer : Nat) (task : ImporterTask) (room : Room := none) (monitor : Monitor := {})
  | import_ (whole : WholeImport)

namespace Workshop

open Import

variable {w : Workshop}

/-- What is there after an action, whatever comes of it. An edit can only speak of types that are
there. -/
def perform (w : Workshop) : Action → Workshop
  | .edit e =>
      if ∀ id ∈ e.uses, id < w.program.arena.size then
        { w with program := (e.edit w.program).2 }
      else w
  | .limit room => { w with program.arena.room := room }
  | .begin_ document options knowsPointerSize =>
      let s := sessionOf none document options { document, program := w.program, knowsPointerSize }
      { w with importers := w.importers ++ [s] }
  | .work k task room monitor =>
      match w.importers[k]? with
      | some s =>
          let t := (task.run { s with program := w.program, room, monitor }).2
          { program := t.program, importers := w.importers.set k t }
      | none => w
  | .import_ i =>
      let start := Importer.start w.program i.options i.host i.monitor
      let t := (importDocument i.document start).2.session
      { program := t.program, importers := w.importers ++ [t] }

def performAll (w : Workshop) (actions : List Action) : Workshop := actions.foldl perform w

/-- The program is grounded, and each importer goes on with it from a grounded session. -/
structure Grounded (w : Workshop) : Prop where
  program : w.program.Grounded
  importers : ∀ s ∈ w.importers, Session.Grounded { s with program := w.program }

/-- The importers go on where one of them, or somebody else, has added types. -/
theorem Grounded.builds (h : w.Grounded) {p : Program} (hp : w.program.Builds p) :
    ∀ s ∈ w.importers, Session.Grounded { s with program := p } :=
  fun s hs => ((h.importers s hs).withProgram hp).grounded

end Workshop

/-- Documents and nodes are well typed. -/
def Action.IsTyped : Action → Prop
  | edit _ | limit _ => True
  | begin_ document .. => document.WellTyped
  | work _ task .. => task.IsTyped
  | import_ i => i.document.WellTyped

namespace Workshop

open Import

variable {w : Workshop}

theorem perform_edit_grounded (h : w.Grounded) (e : TypeEdit) : (w.perform (.edit e)).Grounded := by
  simp only [perform]
  split
  · next uses =>
      have builds : w.program.Builds (e.edit w.program).2 :=
        Runs.snd (Runs.mono (TypeEdit.edit_grounds uses h.program) (fun _ _ h => h.1)
          fun _ _ h => h)
      exact ⟨builds.grounded, h.builds builds⟩
  · exact h

theorem perform_limit_grounded (h : w.Grounded) (room : Room) :
    (w.perform (.limit room)).Grounded := by
  have builds : w.program.Builds { w.program with arena.room := room } :=
    ⟨⟨h.program.arena.withRoom room, h.program.registered⟩, Nat.le_refl _⟩
  exact ⟨builds.grounded, h.builds builds⟩

theorem perform_begin_grounded (h : w.Grounded) {d : Document} (typed : d.WellTyped) (o : Options)
    (knowsPointerSize : Bool) : (w.perform (.begin_ d o knowsPointerSize)).Grounded := by
  refine ⟨h.program, fun s hs => ?_⟩
  rcases List.mem_append.mp hs with hs | hs
  · exact h.importers s hs
  · cases List.mem_singleton.mp hs
    exact sessionOf_grounded (s := { document := d, program := w.program, knowsPointerSize }) typed
      h.program none o

/-- The importer at work leaves the others no fewer types than there were. -/
theorem perform_work_grounded (h : w.Grounded) (k : Nat) {task : ImporterTask}
    (typed : task.IsTyped) (room : Room) (monitor : Monitor) :
    (w.perform (.work k task room monitor)).Grounded := by
  simp only [perform]
  split
  · next s hs =>
      have start : Session.Grounded { s with program := w.program, room, monitor } :=
        { h.importers s (List.mem_of_getElem? hs) with }
      have builds := (ImporterTask.run_staysGrounded typed).apply _ start
      refine ⟨builds.grounded.program, fun u hu => ?_⟩
      rcases List.mem_or_eq_of_mem_set hu with hu | rfl
      · exact h.builds ⟨builds.grounded.program, builds.size_le⟩ u hu
      · exact builds.grounded
  · exact h

theorem perform_import_grounded (h : w.Grounded) {i : WholeImport} (typed : i.document.WellTyped) :
    (w.perform (.import_ i)).Grounded := by
  have left := (importDocument_grounded (i := .start w.program i.options i.host i.monitor) typed
    h.program).snd
  refine ⟨left.grounded.program, fun s hs => ?_⟩
  rcases List.mem_append.mp hs with hs | hs
  · exact h.builds ⟨left.grounded.program, left.size_le⟩ s hs
  · cases List.mem_singleton.mp hs
    exact left.grounded

theorem perform_grounded (h : w.Grounded) {action : Action} (typed : action.IsTyped) :
    (w.perform action).Grounded := by
  cases action with
  | edit e => exact perform_edit_grounded h e
  | limit room => exact perform_limit_grounded h room
  | begin_ document options knowsPointerSize => exact perform_begin_grounded h typed _ _
  | work k task room monitor => exact perform_work_grounded h k typed _ _
  | import_ i => exact perform_import_grounded h typed

theorem performAll_grounded (h : w.Grounded) {actions : List Action}
    (typed : ∀ action ∈ actions, action.IsTyped) : (w.performAll actions).Grounded := by
  induction actions generalizing w with
  | nil => exact h
  | cons action rest ih =>
      exact ih (perform_grounded h (typed action List.mem_cons_self)) fun a ha =>
        typed a (List.mem_cons_of_mem _ ha)

/-! ## What is asked of types -/

theorem grounded_blank (executable : Option String) (pointerSize : Int)
    (convention : CallingConvention) (memory : List (Int × Int)) (room : Room) :
    Program.Grounded { executable, pointerSize, convention, memory, arena := { room } } where
  arena := Arena.sound_empty.withRoom room
  registered h := by cases h

/-- The type is registered, or an importer has it in its table or shares it. -/
def Holds (w : Workshop) (id : TypeId) : Prop :=
  (∃ name, w.program.registry.get? name = some id) ∨ ∃ s ∈ w.importers, s.Holds id

theorem Grounded.lt_size (h : w.Grounded) {id : TypeId} (hid : w.Holds id) :
    id < w.program.arena.size := by
  rcases hid with ⟨name, hid⟩ | ⟨s, hs, hid⟩
  · exact h.program.registered hid
  · exact (h.importers s hs).lt_size hid

theorem Grounded.unwinds (h : w.Grounded) : w.program.arena.Unwinds ∧
    (∀ room : Room, room.allows (2 * w.program.arena.size) = true →
      Arena.Answers { w.program.arena with room }) ∧
    ∀ id, w.Holds id → id < w.program.arena.size :=
  ⟨h.program.arena.unwinds, fun room => (h.program.arena.withRoom room).answers,
    fun _ => h.lt_size⟩

/-- Whatever importers and callers do in turn, wherever it ends: the links of a pointer, an array or
a signature lead to an end, so that every cycle goes through a structure or union, and each question
about a type that somebody may have got hold of is answered, given two calls for every type. -/
theorem performAll_unwinds (executable : Option String) (pointerSize : Int)
    (convention : CallingConvention) (memory : List (Int × Int)) (room : Room)
    (actions : List Action) (typed : ∀ action ∈ actions, action.IsTyped) :
    let w := performAll
      { program := { executable, pointerSize, convention, memory, arena := { room } } } actions
    w.program.arena.Unwinds ∧
      (∀ room : Room, room.allows (2 * w.program.arena.size) = true →
        Arena.Answers { w.program.arena with room }) ∧
      ∀ id, w.Holds id → id < w.program.arena.size := by
  have start : Grounded
      { program := { executable, pointerSize, convention, memory, arena := { room } } } :=
    ⟨grounded_blank _ _ _ _ _, fun _ hs => absurd hs List.not_mem_nil⟩
  exact (performAll_grounded start typed).unwinds

/-- Two importers at work on a document with a circle, the first before and after the second, and a
caller who closes another one. -/
def mutualActions : List Action :=
  [.begin_ mutualDocument,
   .import_ { document := mutualDocument },
   .work 0 (.entry 2) (some 60),
   .edit (.composite .union "choice" 0),
   .edit (.signature "callback" 9 [3]),
   .edit (.pointer 10 4),
   .edit (.offer 9 11 4 (.text "call")),
   .edit (.register 9),
   .work 0 .types]

/-- Both ways around: through a structure and a union that point to each other, and through a union
and a signature that returns it. -/
theorem performAll_unwinds_mutual :
    let w := performAll { program := {} } mutualActions
    w.program.arena.Unwinds ∧ Arena.Answers { w.program.arena with room := none } ∧
      w.program.arena.IsCycle [0, 8, 1, 7] ∧ w.program.arena.IsCycle [9, 11, 10] ∧ w.Holds 9 := by
  have typed : ∀ action ∈ mutualActions, action.IsTyped := by
    have document : mutualDocument.WellTyped := mutualSession_isNew.document
    simp only [mutualActions, List.forall_mem_cons]
    exact ⟨document, document, trivial, trivial, trivial, trivial, trivial, trivial, trivial,
      fun _ hx => absurd hx List.not_mem_nil⟩
  obtain ⟨unwinds, answers, -⟩ := performAll_unwinds none 4 .standard [] none mutualActions typed
  exact ⟨unwinds, answers none (Room.allows_none _), by decide +kernel, by decide +kernel,
    .inl ⟨.text "choice", by decide +kernel⟩⟩

end Workshop

end StabsImport

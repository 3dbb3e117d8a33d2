import StabsImport.Proofs.Barren

/-!
# What the nodes of a document settle on

Once the types of a document have been imported, what is seen of the type of a node where it is used
is settled when the type is first made: its name and its length. Asked for again, the node may get
another type, since placeholders are not shared, but one that looks the same. Main statement:
`typeOf_settles`.
-/

namespace StabsImport

open Document (Node BuiltInClass TypeReference)

/-- What is seen of a type where it is used. -/
structure Look where
  name : Except Fault Json
  length : Int

namespace Look

def undefined (size : Int) : Look := ⟨.ok (.text s!"undefined{size}"), size⟩

def pointer (l : Look) (size : Int) : Look where
  name := do
    match ← l.name with
    | .text name => return .text (name ++ " *")
    | _ => throw .wrongKind
  length := size

def array (l : Look) (count : Int) : Look where
  name := do
    let name ← l.name
    return .text s!"{name.plain}[{count}]"
  length := l.length * count

/-- What has no length is replaced where a type with one is needed. -/
def sized (l : Look) : Look := if l.length ≤ 0 then undefined 1 else l

end Look

namespace Arena

variable {a b : Arena} {x y : TypeId}

def look (a : Arena) (id : TypeId) : Look := ⟨a.name id, a.length id⟩

theorem look_pointer (h : a.Sound) (room : a.room = none) {target : TypeId} {size : Int}
    (hg : a.get? x = some (.pointer target size)) : a.look x = (a.look target).pointer size := by
  rw [look, h.name_pointer room hg, length_pointer hg]
  rfl

theorem look_array (h : a.Sound) (room : a.room = none) {element : TypeId} {count : Int}
    (hg : a.get? x = some (.array element count)) : a.look x = (a.look element).array count := by
  rw [look, h.name_array room hg, h.length_array hg]
  rfl

/-- A type with a name of its own looks as it would alone. -/
theorem look_named (room : a.room = none) {name : Json} {shape : Shape}
    (hg : a.get? x = some (.named name shape)) :
    a.look x = look { objects := #[.named name shape] } 0 := by
  rw [look, name_named room hg]
  have hlength : a.length x = length { objects := #[.named name shape] } 0 := by
    simp only [length, lengthWithin, hg]
    rfl
  rw [hlength]
  rfl

theorem look_undefined (room : a.room = none) {size : Int}
    (hg : a.get? x = some (.undefinedOf size)) : a.look x = .undefined size :=
  look_named room hg

theorem look_of_kept (ha : a.Sound) (hb : b.Sound) (room : a.room = none) (room' : b.room = none)
    (kept : ∀ {id}, id < a.size → b.get? id = a.get? id) (h : x < a.size) :
    b.look x = a.look x := by
  have matching := isMatching_of_kept ha kept
  rw [look, look, matching.name_eq ha hb room room' ⟨rfl, h⟩, matching.length_eq ha hb ⟨rfl, h⟩]

end Arena

namespace Import

variable {d : Document} {pointerSize : Int} {s t u : Session} {x : TypeId} {α β : Type}

/-! ## What a session shows of a node -/

namespace Session

def look (s : Session) (id : TypeId) : Look := s.program.arena.look id

/-- What an entry of the table shows: nothing yet if it has no type. -/
def entryLook (s : Session) (index : Int) : Option Look :=
  if index < 0 ∨ s.document.types.length ≤ index then some (.undefined 1)
  else (s.typeAt? index.toNat).map s.look

def referenceLook (s : Session) (r : TypeReference) : Option Look :=
  if r.isVoid then some (Arena.look { objects := #[.voidType] } 0)
  else (entryOf? s.document r).elim (some (.undefined 1)) s.entryLook

/-- What the type of a node looks like, told by the types of entries and by those on record. -/
def outlook (s : Session) : Node → Option Look
  | .typeName _ r => s.referenceLook r
  | .builtIn _ c => some (Arena.look { objects := #[builtInType c] } 0)
  | .pointer _ _ target => (s.outlook target).map (·.pointer s.program.pointerSize)
  | .array _ element count => (s.outlook element).map (·.sized.array count)
  | .bitField _ _ underlying => s.outlook underlying
  | .memberPointer .. => some (.undefined s.program.pointerSize)
  | node => (node.number?.bind s.cache.nodes.get?).map s.look

theorem outlook_of_number {node : Node} {σ : Nat} (h : node.number? = some σ) (s : Session) :
    s.outlook node = (s.cache.nodes.get? σ).map s.look := by
  cases node with
  | enumeration | composite | functionType =>
      cases h
      rfl
  | _ => cases h

/-- The types of the document were imported, and all that a node shows it shows for good. -/
structure Imported (d : Document) (pointerSize : Int) (s : Session) : Prop where
  sound : s.Sound
  document : s.document = d
  room : s.room = none
  listed : s.IsListed
  unspoilt : s.Unspoilt d pointerSize

end Session

/-- What the one session shows the other shows as well. -/
structure Upholds (s t : Session) : Prop where
  document : t.document = s.document
  pointerSize : t.program.pointerSize = s.program.pointerSize
  convention : t.program.convention = s.program.convention
  memory : t.program.memory = s.program.memory
  outputLines : t.outputLines = s.outputLines
  markInlined : t.markInlined = s.markInlined
  size_le : s.program.arena.size ≤ t.program.arena.size
  look : ∀ {id}, id < s.program.arena.size → t.look id = s.look id
  entry : ∀ {k id}, s.typeAt? k = some id → t.typeAt? k = some id
  node : ∀ {σ id}, s.cache.nodes.get? σ = some id → t.cache.nodes.get? σ = some id

namespace Upholds

theorem refl (s : Session) : Upholds s s :=
  ⟨rfl, rfl, rfl, rfl, rfl, rfl, Nat.le_refl _, fun _ => rfl, id, id⟩

theorem trans (h : Upholds s t) (h' : Upholds t u) : Upholds s u where
  document := h'.document.trans h.document
  pointerSize := h'.pointerSize.trans h.pointerSize
  convention := h'.convention.trans h.convention
  memory := h'.memory.trans h.memory
  outputLines := h'.outputLines.trans h.outputLines
  markInlined := h'.markInlined.trans h.markInlined
  size_le := Nat.le_trans h.size_le h'.size_le
  look hid := (h'.look (Nat.lt_of_lt_of_le hid h.size_le)).trans (h.look hid)
  entry he := h'.entry (h.entry he)
  node hc := h'.node (h.node hc)

/-- What a node shows it goes on to show. -/
theorem outlook (h : Upholds s t) (hs : s.Sound) {node : Node} {l : Look}
    (hl : s.outlook node = some l) : t.outlook node = some l := by
  have found {o o' : Option TypeId} (ho : ∀ {id}, o = some id → o' = some id)
      (hlt : ∀ {id}, o = some id → id < s.program.arena.size) {l : Look}
      (hl : o.map s.look = some l) : o'.map t.look = some l := by
    obtain ⟨id, hid, rfl⟩ := Option.map_eq_some_iff.mp hl
    rw [ho hid, Option.map_some, h.look (hlt hid)]
  induction hh : node.height using Nat.strongRecOn generalizing node l with
  | ind height ih =>
  subst hh
  have part {m : Node} (hm : m ∈ node.parts) {l : Look} (hl : s.outlook m = some l) :
      t.outlook m = some l :=
    ih m.height (Node.height_lt_of_mem_parts hm) hl rfl
  cases node with
  | typeName c r =>
      simp only [Session.outlook, Session.referenceLook] at hl ⊢
      split at hl
      · next hv => rwa [if_pos hv]
      · next hv =>
          rw [if_neg hv, h.document]
          cases he : entryOf? s.document r with
          | none =>
              rw [he] at hl
              exact hl
          | some index =>
              rw [he] at hl
              simp only [Option.elim_some, Session.entryLook] at hl ⊢
              rw [h.document]
              split at hl
              · next hout => rwa [if_pos hout]
              · next hin =>
                  rw [if_neg hin]
                  exact found h.entry hs.entry_lt hl
  | builtIn c b => exact hl
  | pointer c p target =>
      obtain ⟨l', hl', rfl⟩ := Option.map_eq_some_iff.mp hl
      rw [Session.outlook, part (List.mem_singleton_self target) hl', h.pointerSize]
      rfl
  | array c element count =>
      obtain ⟨l', hl', rfl⟩ := Option.map_eq_some_iff.mp hl
      rw [Session.outlook, part (List.mem_singleton_self element) hl']
      rfl
  | bitField c o underlying => exact part (List.mem_singleton_self underlying) hl
  | memberPointer c k m =>
      rw [Session.outlook, h.pointerSize]
      exact hl
  | enumeration | composite | functionType =>
      rw [Session.outlook_of_number rfl] at hl ⊢
      exact found h.node hs.nodes hl
  | variable_ | functionDefinition | sourceFile => cases hl

end Upholds

/-- Nodes and types look in the other session as they look in the one. -/
structure Recalls (s t : Session) : Prop where
  pointerSize : t.program.pointerSize = s.program.pointerSize
  convention : t.program.convention = s.program.convention
  size_le : s.program.arena.size ≤ t.program.arena.size
  look : ∀ {id}, id < s.program.arena.size → t.look id = s.look id
  outlook : ∀ {node l}, s.outlook node = some l → t.outlook node = some l

theorem Upholds.recalls (h : Upholds s t) (hs : s.Sound) : Recalls s t :=
  ⟨h.pointerSize, h.convention, h.size_le, h.look, h.outlook hs⟩

/-! ## Work on such sessions -/

/-- The action leaves the types imported and goes on showing what was shown. -/
def Works (d : Document) (pointerSize : Int) (m : ImportM α) (s : Session)
    (ok : α → Session → Prop) (bad : Fault → Session → Prop) : Prop :=
  Runs m s (fun a t => t.Imported d pointerSize ∧ Upholds s t ∧ ok a t)
    fun e t => t.Imported d pointerSize ∧ Upholds s t ∧ bad e t

namespace Session.Imported

/-- Only what is no part of it was changed. -/
theorem aside (hs : s.Imported d pointerSize) (journal : Journal) (monitor : Monitor)
    (stats : Stats) : Session.Imported d pointerSize { s with journal, monitor, stats } where
  sound := { hs.sound with }
  document := hs.document
  room := hs.room
  listed := hs.listed
  unspoilt := ⟨hs.unspoilt.pointers, hs.unspoilt.counts, hs.unspoilt.barren⟩

theorem edited (hs : s.Imported d pointerSize) {p : Program} (h : SameTypes s.program p) :
    Session.Imported d pointerSize { s with program := p } ∧ Upholds s { s with program := p } := by
  have ha : After { cuts := True } s { s with program := p } := .program hs.sound h
  refine ⟨⟨ha.sound, hs.document, hs.room, hs.listed.after ha, ?_⟩, ?_⟩
  · exact ⟨h.pointerSize.trans hs.unspoilt.pointers, hs.unspoilt.counts, hs.unspoilt.barren⟩
  · refine ⟨rfl, h.pointerSize, h.convention, h.memory, rfl, rfl, ?_, fun _ => ?_, id, id⟩
    · exact Nat.le_of_eq (congrArg Arena.size h.arena).symm
    · exact congrArg (Arena.look · _) h.arena

theorem allows (hs : s.Imported d pointerSize) (calls : Nat) : s.room.allows calls = true :=
  Room.allows_of_eq_none hs.room calls

end Session.Imported

theorem Upholds.aside (s : Session) (journal : Journal) (monitor : Monitor) (stats : Stats) :
    Upholds s { s with journal, monitor, stats } :=
  ⟨rfl, rfl, rfl, rfl, rfl, rfl, Nat.le_refl _, fun _ => rfl, id, id⟩

namespace Works

variable {ok : α → Session → Prop} {bad : Fault → Session → Prop}

theorem mono {m : ImportM α} {good : α → Session → Prop} {worse : Fault → Session → Prop}
    (h : Works d pointerSize m s ok bad)
    (hok : ∀ a t, t.Imported d pointerSize → Upholds s t → ok a t → good a t)
    (hbad : ∀ e t, t.Imported d pointerSize → Upholds s t → bad e t → worse e t) :
    Works d pointerSize m s good worse :=
  Runs.mono h (fun a t h => ⟨h.1, h.2.1, hok a t h.1 h.2.1 h.2.2⟩)
    fun e t h => ⟨h.1, h.2.1, hbad e t h.1 h.2.1 h.2.2⟩

theorem weaken {m : ImportM α} (h : Works d pointerSize m s ok NoFault) :
    Works d pointerSize m s ok bad :=
  h.mono (fun _ _ _ _ h => h) fun _ _ _ _ h => h.elim

theorem and {m : ImportM α} {good : α → Session → Prop} {worse : Fault → Session → Prop}
    (h : Works d pointerSize m s ok bad) (h' : Runs m s good worse) :
    Works d pointerSize m s (fun a t => ok a t ∧ good a t) fun e t => bad e t ∧ worse e t :=
  Runs.mono (Runs.and h h') (fun _ _ h => ⟨h.1.1, h.1.2.1, h.1.2.2, h.2⟩)
    fun _ _ h => ⟨h.1.1, h.1.2.1, h.1.2.2, h.2⟩

theorem pure (hs : s.Imported d pointerSize) {a : α} (h : ok a s) :
    Works d pointerSize (pure a) s ok bad :=
  ⟨hs, .refl s, h⟩

theorem throw (hs : s.Imported d pointerSize) {e : Fault} (h : bad e s) :
    Works d pointerSize (throw e : ImportM α) s ok bad :=
  ⟨hs, .refl s, h⟩

theorem after {m : ImportM α} (hu : Upholds s t) (h : Works d pointerSize m t ok bad) :
    Runs m t (fun a u => u.Imported d pointerSize ∧ Upholds s u ∧ ok a u)
      fun e u => u.Imported d pointerSize ∧ Upholds s u ∧ bad e u :=
  Runs.mono h (fun _ _ h => ⟨h.1, hu.trans h.2.1, h.2.2⟩) fun _ _ h => ⟨h.1, hu.trans h.2.1, h.2.2⟩

theorem bind {m : ImportM α} {f : α → ImportM β} {P : α → Session → Prop}
    {ok : β → Session → Prop} (hm : Works d pointerSize m s P bad)
    (hf : ∀ a t, t.Imported d pointerSize → Upholds s t → P a t →
      Works d pointerSize (f a) t ok bad) :
    Works d pointerSize (m >>= f) s ok bad := by
  rw [Works, Runs.bind_iff]
  exact Runs.mono hm (fun a t h => (hf a t h.1 h.2.1 h.2.2).after h.2.1) fun _ _ h => h

theorem get {f : Session → ImportM α} (h : Works d pointerSize (f s) s ok bad) :
    Works d pointerSize (get >>= f) s ok bad := h

theorem inside (hs : s.Imported d pointerSize) {m : ImportM α} (calls : Nat)
    (h : Works d pointerSize m s ok bad) : Works d pointerSize (inside calls m) s ok bad := by
  rw [Works, Runs] at h ⊢
  rcases hm : m s with ⟨e | a, t⟩ <;> rw [hm] at h <;>
    rw [inside_of_unlimited hs.room h.1.room calls hm] <;> exact h

/-- Of the faults that an action may end with, those of building a type are handled. -/
theorem onTypeFault {m : ImportM α} {handle : Fault → ImportM α} {N : Fault → Session → Prop}
    (hm : Works d pointerSize m s ok N)
    (hN : ∀ e t, N e t → e.isTypeFault = false → bad e t)
    (hh : ∀ e t, t.Imported d pointerSize → Upholds s t → N e t →
      Works d pointerSize (handle e) t ok bad) :
    Works d pointerSize (onTypeFault m handle) s ok bad := by
  rw [Works, runs_onTypeFault]
  refine Runs.mono hm (fun _ _ h => h) fun e t h => ?_
  split
  · exact (hh e t h.1 h.2.1 h.2.2).after h.2.1
  · next hf => exact ⟨h.1, h.2.1, hN e t h.2.2 (Bool.not_eq_true _ ▸ hf)⟩

theorem onRejection {m : ImportM α} {handle : Fault → ImportM α} {N : Fault → Session → Prop}
    (hm : Works d pointerSize m s ok N)
    (hN : ∀ e t, N e t → e.isRejection = false → bad e t)
    (hh : ∀ e t, t.Imported d pointerSize → Upholds s t → N e t → e.isRejection = true →
      Works d pointerSize (handle e) t ok bad) :
    Works d pointerSize (onRejection m handle) s ok bad := by
  rw [Works, runs_onRejection]
  refine Runs.mono hm (fun _ _ h => h) fun e t h => ?_
  split
  · next hf => exact (hh e t h.1 h.2.1 h.2.2 hf).after h.2.1
  · next hf => exact ⟨h.1, h.2.1, hN e t h.2.2 (Bool.not_eq_true _ ▸ hf)⟩

/-- Edits that leave types alone. -/
theorem edit (hs : s.Imported d pointerSize) {e : Edit α} (he : KeepsTypes e)
    {P : α → Program → Prop} {N : Fault → Program → Prop} (h : Runs e s.program P N) :
    Works d pointerSize (Import.edit e) s
      (fun a t => t = { s with program := t.program } ∧ P a t.program)
      fun f t => t = { s with program := t.program } ∧ N f t.program := by
  rw [Works, runs_edit]
  refine Runs.mono ((he s.program).and h) (fun a p hp => ?_) fun f p hp => ?_
  · exact ⟨(hs.edited hp.1).1, (hs.edited hp.1).2, rfl, hp.2⟩
  · exact ⟨(hs.edited hp.1).1, (hs.edited hp.1).2, rfl, hp.2⟩

theorem diagnose (hs : s.Imported d pointerSize) (source message : String) :
    Works d pointerSize (diagnose source message) s
      (fun _ t => t = { s with journal := t.journal }) bad := by
  rw [Works, Import.diagnose, Runs.bind_iff, runs_need, if_pos (hs.allows _), Runs.modify_iff]
  exact ⟨hs.aside _ s.monitor s.stats, .aside s _ s.monitor s.stats, rfl⟩

theorem count (hs : s.Imported d pointerSize) (f : Stats → Stats) :
    Works d pointerSize (count f) s (fun _ t => t = { s with stats := t.stats }) bad :=
  ⟨hs.aside s.journal s.monitor _, .aside s s.journal s.monitor _, rfl⟩

/-- Resolution that takes nothing back works on such sessions. -/
theorem of_yields (hs : s.Imported d pointerSize) {m : ImportM α}
    (hy : Yields { cuts := True } m s ok bad) (frozen : Preserves (Frozen fun _ => False) m)
    (frame : Preserves (GuardedFrame fun _ => True) m) (nodes : Preserves (Over d NodesKept) m)
    (unspoilt : Preserves (Over d (StaysUnspoilt d pointerSize)) m) :
    Works d pointerSize m s ok bad := by
  have kept {t : Session} (ha : After { cuts := True } s t) (hf : Frozen (fun _ => False) s t)
      (hg : GuardedFrame (fun _ => True) s t) (hn : Over d NodesKept s t)
      (hu : Over d (StaysUnspoilt d pointerSize) s t) :
      t.Imported d pointerSize ∧ Upholds s t := by
    obtain ⟨-, hle, hkept, listed⟩ := hf hs.listed
    have hframe : Frame (fun _ => True) s t := hg (.inl fun _ => trivial)
    have hmemory : t.program.memory = s.program.memory := by rw [hframe.program]
    refine ⟨⟨ha.sound, ha.document.trans hs.document, ha.room.trans hs.room, listed,
      (hu hs.document).2 hs.unspoilt⟩, ha.document, ha.pointerSize, hframe.convention, hmemory,
      hframe.outputLines, hframe.markInlined, hle, fun hid => ?_,
      fun he => (ha.entry he).resolve_right fun h => h.1, (hn hs.document).2⟩
    exact Arena.look_of_kept hs.sound.program.arena ha.sound.program.arena hs.sound.naming
      ha.sound.naming (fun hid => hkept hid not_false) hid
  refine Runs.mono ((hy.and (frozen s)).and ((frame s).and ((nodes s).and (unspoilt s))))
    (fun a t h => ?_) fun e t h => ?_
  · have ht := kept h.1.1.1 h.1.2 h.2.1 h.2.2.1 h.2.2.2
    exact ⟨ht.1, ht.2, h.1.1.2⟩
  · have ht := kept h.1.1.1 h.1.2 h.2.1 h.2.2.1 h.2.2.2
    exact ⟨ht.1, ht.2, h.1.1.2⟩

end Works

/-! ## How types look when they are made -/

/-- What takes the place of a type looks like it, or like a placeholder. -/
theorem look_of_standsFor (hu : Upholds s t) (ht : t.Sound) {own : TypeId}
    (hown : own < s.program.arena.size)
    (h : t.all.StandsFor (s.program.arena.extent own) (s.program.arena.extent own).sized own x) :
    t.look x = (t.look own).sized := by
  have hlook : t.look own = s.look own := hu.look hown
  have hlength : (s.look own).length = (s.program.arena.extent own).length :=
    (Arena.length_extent _ _).symm
  simp only [View.StandsFor, Extent.sized_eq_iff] at h
  rw [hlook, Look.sized, hlength]
  split at h
  · next hpos =>
      rw [if_neg (Int.not_le.mpr hpos), h, hlook]
  · next hpos =>
      rw [if_pos (Int.not_lt.mp hpos)]
      exact Arena.look_undefined ht.naming h

namespace Works

variable {bad : Fault → Session → Prop}

theorem pointerTo (hs : s.Imported d pointerSize) {target : TypeId}
    (ht : target < s.program.arena.size) :
    Works d pointerSize (pointerTo target) s (fun id t => id < t.program.arena.size ∧
      t.look id = (t.look target).pointer t.program.pointerSize) bad := by
  refine mono (of_yields hs (hs.sound.pointerTo (hs.allows 3) ht) (.pointerTo _) (.pointerTo _)
    (pointerTo_accrues target) (pointerTo_accrues target)) (fun id t h hu hg => ?_)
    fun _ _ _ _ h => h
  refine ⟨Arena.lt_size_of_get? hg, ?_⟩
  rw [hu.pointerSize]
  exact Arena.look_pointer h.sound.program.arena h.sound.naming hg

theorem arrayOf (hs : s.Imported d pointerSize) {element : TypeId}
    (he : element < s.program.arena.size) (count : Int) :
    Works d pointerSize (arrayOf element count) s (fun id t => id < t.program.arena.size ∧
      t.look id = (t.look element).sized.array count) fun e _ => e.isTypeFault = true ∧ count < 0 := by
  refine mono (of_yields hs (hs.sound.arrayOf (hs.allows 3) element count) (.arrayOf _ _)
    (.arrayOf _ _)
    (arrayOf_accrues element count) (arrayOf_accrues element count)) (fun id t h hu hg => ?_)
    fun _ _ _ _ h => h
  obtain ⟨el, hg, -, hel⟩ := hg
  refine ⟨Arena.lt_size_of_get? hg, ?_⟩
  rw [← look_of_standsFor hu h.sound he hel]
  exact Arena.look_array h.sound.program.arena h.sound.naming hg

theorem sizedType (hs : s.Imported d pointerSize) {own : TypeId}
    (hown : own < s.program.arena.size) :
    Works d pointerSize (Import.edit (Program.sizedType (some own))) s
      (fun id t => id < t.program.arena.size ∧ t.look id = (t.look own).sized) bad := by
  refine mono (of_yields hs (hs.sound.sizedType own) (.sizedType own) (.sizedType own)
    (.sizedType own) (.sizedType own)) (fun id t h hu hg => ?_) fun _ _ _ _ h => h
  refine ⟨Arena.lt_size_of_length_pos ?_, look_of_standsFor hu h.sound hown hg.2.1⟩
  rw [← Arena.length_extent, hg.2.2]
  exact Extent.length_sized_pos _

theorem newUndefined (hs : s.Imported d pointerSize) (size : Int) :
    Works d pointerSize (Import.edit (Program.newUndefined size)) s
      (fun id t => id < t.program.arena.size ∧ t.look id = .undefined size)
      fun e _ => e.isTypeFault = true := by
  refine mono (of_yields hs (hs.sound.newUndefined size) (.newUndefined size) (.newUndefined size)
    (.newUndefined size) (.newUndefined size)) (fun id t h _ hg => ?_) fun _ _ _ _ h => h.1
  exact ⟨Arena.lt_size_of_get? hg.2, Arena.look_undefined h.sound.naming hg.2⟩

theorem undefined1 (hs : s.Imported d pointerSize) :
    Works d pointerSize undefined1 s
      (fun id t => id < t.program.arena.size ∧ t.look id = .undefined 1) bad := by
  refine mono (of_yields hs hs.sound.undefined1 .undefined1 .undefined1 .undefined1 .undefined1)
    (fun id t h _ hg => ?_) fun _ _ _ _ h => h
  obtain ⟨rfl, rfl⟩ := hg
  exact ⟨Arena.lt_size_of_get? (get?_push s _), Arena.look_undefined h.sound.naming (get?_push s _)⟩

theorem builtIn (hs : s.Imported d pointerSize) (c : BuiltInClass) :
    Works d pointerSize (builtIn c) s (fun id t => id < t.program.arena.size ∧
      t.look id = Arena.look { objects := #[builtInType c] } 0) bad := by
  refine mono (of_yields hs (hs.sound.builtIn (hs.allows 3) c) (.builtIn c) (.builtIn c)
    (builtIn_accrues c) (builtIn_accrues c)) (fun id t h _ hg => ?_) fun _ _ _ _ h => h
  obtain ⟨name, shape, hc⟩ : ∃ name shape, builtInType c = .named name shape := by
    cases c <;> exact ⟨_, _, rfl⟩
  rw [hc] at hg ⊢
  exact ⟨Arena.lt_size_of_get? hg, Arena.look_named h.sound.naming hg⟩

end Works

/-- An entry that is not there is replaced. -/
theorem knownEntry_outside (hs : s.Imported d pointerSize) {index : Int}
    (hout : index < 0 ∨ s.document.types.length ≤ index) (opened : List Nat) :
    Works d pointerSize ( knownEntry? opened index) s (fun known t => ∃ id, known = some id ∧
      id < t.program.arena.size ∧ t.look id = .undefined 1) NoFault := by
  have hsize : s.table.size = s.document.types.length := hs.sound.prepared hs.listed.1
  have hprepare : prepare s = (.ok (), s) := prepare_of_isPrepared hs.listed.1
  rw [ knownEntry?, Works, Runs.bind_iff]
  refine Runs.of_eq hprepare ?_
  rw [Runs.bind_iff, Runs.get_iff]
  dsimp only
  rw [if_pos (by simpa [hsize] using hout)]
  refine Works.bind (Works.diagnose hs _ _) fun _ t ht _ _ => ?_
  refine Works.bind (Works.undefined1 ht) fun id u hu _ hid => ?_
  exact Works.pure hu ⟨id, rfl, hid⟩

/-! ## Nodes that can be made -/

/-- The action ends with a type that is there, and without a fault. -/
abbrev Session.GetsType (s : Session) (m : ImportM TypeId) : Prop :=
  Yields { cuts := True } m s (fun id t => id < t.program.arena.size) NoFault

section

variable (hs : s.Sound) (hr : s.room = none) {hint : Json} (hh : hint.IsName)

theorem enters_typeAt (s : Session) : Enters s.document 0 { cuts := True } (fun _ => False)
    (fun _ => True) (tableNeed s.document) typeAt := typeAt_enters (settles_of_cuts _ _)

include hs hr hh

theorem getsType_enumeration {c : Document.Common} {constants : List (Int × Json)}
    (typed : (Node.enumeration c constants).WellTyped) :
    s.GetsType (createType typeAt (.enumeration c constants) hint) := by
  have allows (n : Nat) : (s.room.inside 1).allows n = true :=
    Room.allows_of_eq_none (by rw [hr, Room.inside_none]) n
  have within : Session.Sound { s with room := s.room.inside 1 } := { hs with }
  obtain ⟨name, hname⟩ := nameOr_text typed.typed.1 hh "__anon_enum"
  rw [Session.GetsType, createType, hname]
  refine Yields.inside (Room.allows_of_eq_none hr 1) ((within.cached? c.serial).bind ?_)
  rintro _ t - ⟨rfl, rfl⟩
  split
  · next id hc => exact .pure within (hs.nodes hc)
  · refine (within.newEnumeration (allows _) name typed.typed.2).bind ?_
    intro id u hu hid
    have hlt := Arena.lt_size_of_get? hid
    refine (hu.sound.cacheNode hlt c.serial).bind ?_
    rintro _ v hv rfl
    exact .pure hv.sound hlt

theorem getsType_composite {c : Document.Common} {isRecord : Bool} {bases : List Document.Base}
    {fields members : List Node} (typed : (Node.composite c isRecord bases fields members).WellTyped) :
    s.GetsType (createType typeAt (.composite c isRecord bases fields members) hint) := by
  have allows (n : Nat) : (s.room.inside 1).allows n = true :=
    Room.allows_of_eq_none (by rw [hr, Room.inside_none]) n
  have within : Session.Sound { s with room := s.room.inside 1 } := { hs with }
  obtain ⟨name, hname⟩ := nameOr_text typed.typed.name hh "__anon_struct"
  have hname : nameOr c.name hint "__anon_struct" = .text name := hname
  rw [Session.GetsType, createType, hname]
  refine Yields.inside (Room.allows_of_eq_none hr 1) ((within.cached? c.serial).bind ?_)
  rintro _ t - ⟨rfl, rfl⟩
  split
  · next id hc => exact .pure within (hs.nodes hc)
  · refine (within.newShell (allows 3) isRecord c.sizeBits name).bind ?_
    rintro _ u hu ⟨rfl, rfl⟩
    have hid := Arena.lt_size_of_get? (get?_push { s with room := s.room.inside 1 }
      (.named (.text name) (.composite (.empty (kindOf isRecord) (declaredBytes c.sizeBits)))))
    refine (hu.sound.cacheNode hid c.serial).bind ?_
    intro _ v hv hv'
    have hshell : v.IsComposite s.program.arena.size (kindOf isRecord) :=
      hv.isComposite ⟨_, _, get?_push _ _, rfl⟩
    have hfill : Yields { cuts := True } (fill typeAt s.program.arena.size isRecord bases fields)
        v (fun _ x => Fills v.document 0 { cuts := True } s.program.arena.size _
          (membersOf isRecord bases fields) v x) NoFault :=
      fill_yields (enters_typeAt v) (reportingCalls_le_tableNeed _) typed (fun _ _ => trivial)
        hv.sound.ready hshell (by rw [hv.room, hu.room]; exact allows _)
    refine Yields.bind hfill fun _ x hx _ => ?_
    exact .pure hx.sound (hx.lt_size (hv.lt_size hid))

/-- A function type has a type if what it returns has one; what its parameters are does not matter. -/
theorem getsType_functionType {f : Document.FunctionType}
    (typed : (Node.functionType f).WellTyped)
    (returns : Session.GetsType { s with room := s.room.inside 2 }
      (returnTypeOf typeAt f.returnType)) :
    s.GetsType (createType typeAt (.functionType f) hint) := by
  have unlimited : s.room.inside 2 = none := by rw [hr, Room.inside_none]
  have within : Session.Sound { s with room := s.room.inside 2 } := { hs with }
  obtain ⟨name, hname⟩ := nameOr_text typed.typed.name hh "__anon_function"
  have hname : nameOr f.common.name hint "__anon_function" = .text name := hname
  rw [Session.GetsType, createType_functionType, hname]
  refine Yields.inside (Room.allows_of_eq_none hr 2) ((within.cached? f.common.serial).bind ?_)
  rintro _ t - ⟨rfl, rfl⟩
  split
  · next id hc => exact .pure within (hs.nodes hc)
  refine Yields.bind returns fun id t ht hid => ?_
  have allows (n : Nat) : t.room.allows n = true :=
    Room.allows_of_eq_none (ht.room.trans unlimited) n
  have creates : ∀ v ∈ f.parameters.getD [], Creates t.document 0 { cuts := True }
      (fun _ => False) (tableNeed t.document) typeAt v.type := fun v hv =>
    typeOf_creates (settles_of_cuts _ _) (typed.part (List.mem_append_right _
      (List.mem_map_of_mem hv)))
  have formals : Yields { cuts := True } (formalTypesOf typeAt f.parameters) t
      (fun ids u => ∀ id ∈ ids, id < u.program.arena.size) NoFault :=
    (formals_yields ht.sound.ready (reportingCalls_le_tableNeed _) (allows _)
      creates).mono (fun _ _ _ h => h.1) fun _ _ _ h => h
  refine Yields.bind formals fun ids u hu hids => ?_
  refine (hu.sound.newSignature (hu.room ▸ allows 2) name (hu.lt_size hid) hids).bind ?_
  intro id v hv hg
  have hlt := Arena.lt_size_of_get? hg
  refine (hv.sound.cacheNode hlt f.common.serial).bind ?_
  rintro _ w hw rfl
  exact .pure hw.sound hlt

end

/-- A node that describes what can be made has a type. -/
theorem typeOf_makes (hs : s.Sound) (hr : s.room = none) {node : Node} (typed : node.WellTyped)
    (buildable : node.isBuildable s.program.pointerSize = true) {hint : Json} (hh : hint.IsName) :
    Yields { cuts := True } (typeOf node hint) s (fun id t => id < t.program.arena.size)
      NoFault := by
  have allows {s : Session} (hr : s.room = none) (n : Nat) : s.room.allows n = true :=
    Room.allows_of_eq_none hr n
  induction hn : node.height using Nat.strongRecOn generalizing node s hint with
  | ind height ih =>
  subst hn
  have part {m : Node} (hm : m ∈ node.parts) {s : Session} (hs : s.Sound) (hr : s.room = none)
      (hb : m.isBuildable s.program.pointerSize = true) {hint : Json} (hh : hint.IsName) :
      s.GetsType (createType typeAt m hint) :=
    ih m.height (Node.height_lt_of_mem_parts hm) hs hr (typed.part hm) hb hh rfl
  have within (calls : Nat) : Session.Sound { s with room := s.room.inside calls } := { hs with }
  have unlimited (calls : Nat) : s.room.inside calls = none := by rw [hr, Room.inside_none]
  unfold typeOf
  cases node with
  | typeName c r =>
      rw [createType_typeName]
      refine Yields.inside (allows hr 2) ?_
      exact (resolveReference_yields (enters_typeAt s) (reportingCalls_le_tableNeed _)
        (within 2).ready (allows (unlimited 2) _) typed.typed.2 (fun _ _ _ => trivial) c hint).mono
        (fun _ _ _ h => h.1) fun _ _ _ h => h
  | builtIn c b =>
      rw [createType]
      exact Yields.inside (allows hr 1) (((within 1).builtIn (allows (unlimited 1) 3) b).mono
        (fun _ _ _ h => Arena.lt_size_of_get? h) fun _ _ _ h => h)
  | pointer c p target =>
      rw [createType]
      refine Yields.inside (allows hr 1) ((part (List.mem_singleton_self target) (within 1)
        (unlimited 1) buildable (.inl rfl)).bind fun id t ht hid => ?_)
      exact (ht.sound.pointerTo (allows (ht.room.trans (unlimited 1)) 3) hid).mono
        (fun _ _ _ h => Arena.lt_size_of_get? h) fun _ _ _ h => h
  | array c element count =>
      rw [createType]
      rw [Node.isBuildable, Bool.and_eq_true, decide_eq_true_eq] at buildable
      refine Yields.inside (allows hr 1) ((part (List.mem_singleton_self element) (within 1)
        (unlimited 1) buildable.1 (.inl rfl)).bind fun id t ht _ => ?_)
      refine (ht.sound.arrayOf (allows (ht.room.trans (unlimited 1)) 3) id count).mono ?_ ?_
      · rintro _ _ - ⟨_, hg, -⟩
        exact Arena.lt_size_of_get? hg
      · rintro _ _ - ⟨_, hneg⟩
        exact absurd buildable.2 (Int.not_le.mpr hneg)
  | bitField c o underlying =>
      rw [createType]
      exact Yields.inside (allows hr 1) (part (List.mem_singleton_self underlying) (within 1)
        (unlimited 1) buildable (.inl rfl))
  | memberPointer c k m =>
      rw [createType]
      refine Yields.inside (allows hr 1) ((Yields.need (within 1) (allows (unlimited 1) 2)).bind ?_)
      rintro _ t - rfl
      refine (Yields.pointerSize (within 1)).bind ?_
      rintro _ t - ⟨rfl, rfl⟩
      refine ((within 1).newUndefined _).mono (fun _ _ _ h => Arena.lt_size_of_get? h.2) ?_
      rintro _ _ - ⟨_, hneg⟩
      exact absurd (of_decide_eq_true buildable) (Int.not_le.mpr hneg)
  | enumeration c constants => exact getsType_enumeration hs hr hh typed
  | composite c isRecord bases fields members => exact getsType_composite hs hr hh typed
  | functionType f =>
      rw [Node.isBuildable_functionType] at buildable
      refine getsType_functionType hs hr hh typed ?_
      cases hf : f.returnType with
      | none =>
          exact ((within 2).builtIn (allows (unlimited 2) 3) .void).mono
            (fun _ _ _ h => Arena.lt_size_of_get? h) fun _ _ _ h => h
      | some n =>
          refine part (List.mem_append_left _ (by simp [hf])) (within 2) (unlimited 2) ?_ (.inl rfl)
          rw [hf] at buildable
          exact buildable
  | variable_ | functionDefinition | sourceFile => cases buildable

/-! ## What nodes look like once they are made -/

section

variable (numbered : d.IsNumbered)

namespace Works

variable {bad : Fault → Session → Prop}

include numbered in
theorem typeAt (hs : s.Imported d pointerSize) (index : Int) :
    Works d pointerSize (typeAt index) s
      (fun id t => id < t.program.arena.size ∧ t.entryLook index = some (t.look id)) bad := by
  by_cases hout : index < 0 ∨ s.document.types.length ≤ index
  · have absent : ∀ budget, Works d pointerSize (typeAtWithin budget [] index) s
        (fun id t => id < t.program.arena.size ∧ t.entryLook index = some (t.look id)) bad := by
      intro budget
      have answer {id : TypeId} {t : Session} (ht : t.Imported d pointerSize) (hu : Upholds s t)
          (hid : id < t.program.arena.size) (hlook : t.look id = .undefined 1) :
          Works d pointerSize (do return id) t
            (fun id t => id < t.program.arena.size ∧ t.entryLook index = some (t.look id)) bad := by
        refine Works.pure ht ⟨hid, ?_⟩
        rw [Session.entryLook, hu.document, if_pos hout, hlook]
      cases budget with
      | zero | succ =>
          refine inside hs 1 (bind (knownEntry_outside hs hout []).weaken fun known t ht hu h => ?_)
          obtain ⟨id, rfl, hid, hlook⟩ := h
          exact answer ht hu hid hlook
    exact get (absent _)
  · obtain ⟨hpos, hlt⟩ : 0 ≤ index ∧ index < s.document.types.length := by omega
    obtain ⟨k, rfl⟩ := Int.eq_ofNat_of_zero_le hpos
    have hk : k < s.document.types.length := by omega
    have answers : Yields { cuts := True } (Import.typeAt k) s
        (fun id t => t.typeAt? k = some id) NoFault :=
      typeAt_answers (settles_of_cuts _ _) hs.sound.ready hk (hs.allows _)
    refine mono (of_yields hs answers.weaken (typeAt_frame _ _) (typeAt_frame _ _)
      (typeAt_accrues (fun _ _ => .all) _)
      (typeAt_accrues (fun _ hn => admits_of_holds numbered (Document.holds_of_mem_types hn)) _))
      (fun id t ht hu hid => ?_) fun _ _ _ _ h => h
    refine ⟨ht.sound.entry_lt hid, ?_⟩
    rw [Session.entryLook, hu.document, if_neg hout]
    exact congrArg (Option.map t.look) hid

include numbered in
theorem resolveReference (hs : s.Imported d pointerSize) {r : TypeReference}
    (hname : r.typeName.IsName) :
    Works d pointerSize (resolveReference Import.typeAt r) s
      (fun id t => id < t.program.arena.size ∧ t.referenceLook r = some (t.look id)) bad := by
  rw [Import.resolveReference]
  cases hv : r.isVoid with
  | true =>
      rw [TypeReference.isVoid] at hv
      rw [if_pos hv]
      refine mono (builtIn hs .void) (fun id t _ _ hid => ⟨hid.1, ?_⟩) fun _ _ _ _ h => h
      rw [Session.referenceLook, TypeReference.isVoid, if_pos hv, hid.2]
      rfl
  | false =>
      have hsolid : ¬ (decide (r.typeName = .text "void") && r.number.isNone) = true := by
        rw [Bool.not_eq_true]
        exact hv
      have found : lookUp r s = (.ok (entryOf? s.document r), s) := by
        refine Runs.eq_ok ?_
        rw [lookUp, Runs.bind_iff]
        refine Runs.of_eq (prepare_of_isPrepared hs.listed.1) ?_
        rw [Runs.bind_iff, Runs.get_iff]
        simp only [hname.isKey, Bool.not_true, Bool.and_false, Bool.false_and, Bool.false_eq_true,
          if_false]
        exact ⟨rfl, rfl⟩
      rw [if_neg hsolid, Works, Runs.bind_iff, runs_need, if_pos (hs.allows 2), Runs.bind_iff]
      refine Runs.of_eq found ?_
      cases he : entryOf? s.document r with
      | some index =>
          refine mono (typeAt numbered hs index) (fun id t _ hu hid => ⟨hid.1, ?_⟩) fun _ _ _ _ h => h
          rw [Session.referenceLook, hv, hu.document, he]
          exact hid.2
      | none =>
          refine bind (diagnose hs _ _) fun _ t ht hu _ => ?_
          refine mono (undefined1 ht) (fun id u _ hu' hid => ⟨hid.1, ?_⟩) fun _ _ _ _ h => h
          rw [Session.referenceLook, hv, hu'.document, hu.document, he, hid.2]
          rfl

end Works

include numbered

/-- A node gets a type if it describes one, and the type looks as the node will look from then on. -/
theorem typeOf_settles (hs : s.Imported d pointerSize) {node : Node} (typed : node.WellTyped)
    (held : d.Holds node) {hint : Json} (hh : hint.IsName) :
    Works d pointerSize (typeOf node hint) s
      (fun id t => id < t.program.arena.size ∧ t.outlook node = some (t.look id) ∧
        node.isBuildable pointerSize = true)
      fun e _ => e.isTypeFault = true ∧ node.isBuildable pointerSize = false := by
  have resolved {m : Node} {s : Session} (hs : s.Imported d pointerSize) (typed : m.WellTyped)
      (held : d.Holds m) {hint : Json} (hh : hint.IsName) :
      Works d pointerSize (typeOf m hint) s (fun id t => id < t.program.arena.size)
        fun e _ => e.isTypeFault = true ∧ m.isBuildable pointerSize = false := by
    refine Works.of_yields hs ?_ (typeOf_frame _ _) (typeOf_frame _ _)
      (typeOf_accrues (fun _ _ => .all) .all _) (typeOf_staysUnspoilt numbered held _)
    cases hb : m.isBuildable pointerSize with
    | true =>
        rw [← hs.unspoilt.pointers] at hb
        exact (typeOf_makes hs.sound hs.room typed hb hh).weaken
    | false =>
        have hy := typeOf_yields (settles_of_cuts s.document fun _ => False) typed hs.sound.ready hh
          (hs.allows _)
        exact hy.mono (fun _ _ _ h => h) fun _ _ _ h => ⟨h, rfl⟩
  have buildable {m : Node} {s : Session} (held : d.Holds m) (hint : Json) :
      Runs (typeOf m hint) s
        (fun _ t => t.Unspoilt d pointerSize → m.isBuildable pointerSize = true)
        fun _ _ => True := by
    cases hb : m.isBuildable pointerSize with
    | true => exact Runs.of_all (fun _ _ _ => rfl) fun _ _ => trivial
    | false =>
        exact Runs.mono (createType_spoilt hb held Import.typeAt hint s)
          (fun _ _ h hu => absurd hu h) fun _ _ _ => trivial
  have looks {s : Session} (hs : s.Imported d pointerSize) : Works d pointerSize (typeOf node hint) s
      (fun id t => t.outlook node = some (t.look id)) fun _ _ => True := by
    induction hn : node.height using Nat.strongRecOn generalizing node s hint with
    | ind height ih =>
    subst hn
    -- what the last part of an action looks like is told by what the first is known to look like
    have part {m : Node} (hm : m ∈ node.parts) {s : Session} (hs : s.Imported d pointerSize) :
        Works d pointerSize (createType Import.typeAt m .null) s
          (fun id t => id < t.program.arena.size ∧ t.outlook m = some (t.look id))
          fun _ _ => True :=
      ((resolved hs (typed.part hm) (held.part hm) (.inl rfl)).and
        (ih m.height (Node.height_lt_of_mem_parts hm) (typed.part hm) (held.part hm) (.inl rfl) hs
          rfl)).mono (fun _ _ _ _ h => ⟨h.1, h.2.2.2⟩) fun _ _ _ _ _ => trivial
    have recorded {σ : Nat} (number : node.number? = some σ) :
        Works d pointerSize (typeOf node hint) s
          (fun id t => t.outlook node = some (t.look id)) fun _ _ => True := by
      refine ((resolved hs typed held hh).and (typeOf_records number hint s)).mono
        (fun id t _ _ h => ?_) fun _ _ _ _ _ => trivial
      rw [Session.outlook_of_number number, h.2]
      rfl
    cases node with
    | typeName c r =>
        rw [typeOf, createType_typeName]
        refine Works.inside hs 2 ((Works.resolveReference numbered hs typed.typed.2).mono
          (fun _ _ _ _ h => ?_) fun _ _ _ _ h => h)
        exact h.2
    | builtIn c b =>
        rw [typeOf, createType]
        refine Works.inside hs 1 ((Works.builtIn hs b).mono (fun _ _ _ _ h => ?_) fun _ _ _ _ h => h)
        rw [Session.outlook, h.2]
    | pointer c p target =>
        rw [typeOf, createType]
        refine Works.inside hs 1 ((part (List.mem_singleton_self target) hs).bind
          fun id t ht _ hid => ?_)
        refine (Works.pointerTo ht hid.1).mono (fun id' u _ hu h => ?_) fun _ _ _ _ h => h
        rw [Session.outlook, hu.outlook ht.sound hid.2, h.2, hu.look hid.1]
        rfl
    | array c element count =>
        rw [typeOf, createType]
        refine Works.inside hs 1 ((part (List.mem_singleton_self element) hs).bind
          fun id t ht _ hid => ?_)
        refine (Works.arrayOf ht hid.1 count).mono (fun id' u _ hu h => ?_) fun _ _ _ _ _ => trivial
        rw [Session.outlook, hu.outlook ht.sound hid.2, h.2, hu.look hid.1]
        rfl
    | bitField c o underlying =>
        rw [typeOf, createType]
        refine Works.inside hs 1 ((part (List.mem_singleton_self underlying) hs).mono
          (fun _ _ _ _ h => ?_) fun _ _ _ _ h => h)
        rw [Session.outlook, h.2]
    | memberPointer c k m =>
        rw [typeOf, createType]
        refine Works.inside hs 1 ?_
        rw [Works, Runs.bind_iff, runs_need, if_pos (hs.allows 2), Import.pointerSize, bind_assoc,
          Runs.bind_iff, Runs.get_iff]
        simp only [hs.sound.knowsPointerSize, Bool.not_true, Bool.false_eq_true, if_false, pure_bind]
        refine (Works.newUndefined hs s.program.pointerSize).mono (fun id t _ hu h => ?_)
          fun _ _ _ _ _ => trivial
        rw [Session.outlook, hu.pointerSize, h.2]
    | enumeration c constants => exact recorded rfl
    | composite c isRecord bases fields members => exact recorded rfl
    | functionType f => exact recorded rfl
    | variable_ | functionDefinition | sourceFile =>
        rw [typeOf, createType]
        exact Works.throw hs trivial
  refine (((resolved hs typed held hh).and (buildable held hint)).and (looks hs)).mono
    (fun id t ht _ h => ⟨h.1.1, h.2.2.2, h.1.2 ht.unspoilt⟩) fun _ _ _ _ h => h.1.1

end

end Import

end StabsImport

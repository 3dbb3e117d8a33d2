import StabsImport.Proofs.Yields

/-!
# Actions that only add types

Most of what resolution is made of adds types and notices, and shares types, but changes no type
that is there, registers none and gives no entry a type.
-/

namespace StabsImport.Import

open Document (BuiltInClass)

variable {α β : Type} {L : Scope} {s s' s'' : Session}

/-- What a session is with one type more. -/
def Session.push (s : Session) (t : TypeObject) : Session :=
  { s with program := { s.program with arena := s.program.arena.push t } }

theorem get?_push (s : Session) (t : TypeObject) :
    (s.push t).program.arena.get? s.program.arena.size = some t :=
  Arena.get?_push_self _ _

theorem edit_sizedType (s : Session) (id : TypeId) :
    edit (Program.sizedType (some id)) s =
      if s.program.arena.length id ≤ 0 then undefined1 s else (.ok id, s) := by
  have h : Program.sizedType (some id) s.program =
      (if s.program.arena.length id ≤ 0 then Program.newUndefined 1 else pure id) s.program := rfl
  by_cases hl : s.program.arena.length id ≤ 0
  · simp only [edit, undefined1, h, if_pos hl]
  · simp only [edit, h, if_neg hl]
    rfl

/-- Types and notices were added, and nothing else was done. -/
structure Gains (s s' : Session) : Prop where
  document : s'.document = s.document
  pointerSize : s'.program.pointerSize = s.program.pointerSize
  kept : ∀ {id t}, s.program.arena.get? id = some t → s'.program.arena.get? id = some t
  registry : s'.program.registry = s.program.registry
  entry : ∀ k, s'.typeAt? k = s.typeAt? k
  nodes : s'.cache.nodes = s.cache.nodes
  journal : s.journal.toList <+: s'.journal.toList

theorem Gains.refl (s : Session) : Gains s s :=
  ⟨rfl, rfl, fun h => h, rfl, fun _ => rfl, rfl, List.prefix_rfl⟩

theorem Gains.trans (h : Gains s s') (h' : Gains s' s'') : Gains s s'' where
  document := h'.document.trans h.document
  pointerSize := h'.pointerSize.trans h.pointerSize
  kept hg := h'.kept (h.kept hg)
  registry := h'.registry.trans h.registry
  entry k := (h'.entry k).trans (h.entry k)
  nodes := h'.nodes.trans h.nodes
  journal := h.journal.trans h'.journal

/-- A relation between sessions that leads on from step to step, whatever is reported and however
much room there is. -/
class Stepwise (R : Session → Session → Prop) : Prop where
  refl (s : Session) : R s s
  trans {s s' s'' : Session} : R s s' → R s' s'' → R s s''
  report (s : Session) (n : Notice) : R s { s with journal := s.journal.push n }
  inside {s s' : Session} (r : Room) : R { s with room := r } s' → R s { s' with room := s.room }

/-- A relation between sessions that holds wherever types with names of their own are added. -/
class Naming (R : Session → Session → Prop) : Prop extends Stepwise R where
  pushNamed (s : Session) (name : Json) (shape : Shape) : R s (s.push (.named name shape))

/-- A relation between sessions that holds wherever types and notices are added and types are
shared. -/
class Additive (R : Session → Session → Prop) : Prop extends Stepwise R where
  push (s : Session) (t : TypeObject) : R s (s.push t)
  share (s : Session) (c : TypeCache) (h : c.nodes = s.cache.nodes) : R s { s with cache := c }

instance (priority := low) {R : Session → Session → Prop} [Additive R] : Naming R where
  pushNamed s _ _ := Additive.push s _

instance : Additive Gains where
  refl := .refl
  trans := .trans
  push _ t := ⟨rfl, rfl, fun h => Arena.get?_push_of_get? t h, rfl, fun _ => rfl, rfl,
    List.prefix_rfl⟩
  report _ _ := ⟨rfl, rfl, fun h => h, rfl, fun _ => rfl, rfl, by simp⟩
  share _ _ h := ⟨rfl, rfl, fun h => h, rfl, fun _ => rfl, h, List.prefix_rfl⟩
  inside _ h := ⟨h.document, h.pointerSize, h.kept, h.registry, h.entry, h.nodes, h.journal⟩

/-- What is made for a node, unless it has a type. -/
def orCached (serial : Nat) (make : ImportM TypeId) : ImportM TypeId := do
  match ← cached? serial with
  | some id => return id
  | none => make

theorem runs_orCached {serial : Nat} {make : ImportM TypeId} {ok : TypeId → Session → Prop}
    {bad : Fault → Session → Prop} :
    Runs (orCached serial make) s ok bad ↔
      (s.cache.nodes.get? serial).elim (Runs make s ok bad) fun id => ok id s := by
  rw [orCached, Runs.bind_iff, cached?, Runs.bind_iff, Runs.get_iff, Runs.pure_iff]
  cases s.cache.nodes.get? serial <;> exact Iff.rfl

/-- The relation holds of the sessions before and after the action, whatever it ends with. -/
def Preserves (R : Session → Session → Prop) (m : ImportM α) : Prop :=
  ∀ s, Runs m s (fun _ s' => R s s') fun _ s' => R s s'

theorem Preserves.apply {R : Session → Session → Prop} {m : ImportM α} (h : Preserves R m)
    (s : Session) : R s (m s).2 := (h s).snd

theorem Yields.preserved {R : Session → Session → Prop} {m : ImportM α}
    {ok : α → Session → Prop} {bad : Fault → Session → Prop} (h : Yields L m s ok bad)
    (hm : Preserves R m) :
    Yields L m s (fun a s' => R s s' ∧ ok a s') fun e s' => R s s' ∧ bad e s' :=
  Runs.mono (Runs.and h (hm s)) (fun _ _ h => ⟨h.1.1, h.2, h.1.2⟩) fun _ _ h => ⟨h.1.1, h.2, h.1.2⟩

theorem Yields.gains_ok {m : ImportM α} {ok : α → Session → Prop} {bad : Fault → Session → Prop}
    (h : Yields L m s ok bad) (hm : Preserves Gains m) :
    Yields L m s (fun a s' => Gains s s' ∧ ok a s') bad :=
  (h.preserved hm).mono (fun _ _ _ h => h) fun _ _ _ h => h.2

namespace Preserves

variable {R : Session → Session → Prop}

theorem get {f : Session → ImportM α} (hf : ∀ s, Preserves R (f s)) : Preserves R (get >>= f) :=
  fun s => hf s s

theorem modify {f : Session → Session} (h : ∀ s, R s (f s)) :
    Preserves R (modify f : ImportM PUnit) := h

section

variable [Stepwise R]

theorem pure (a : α) : Preserves R (pure a : ImportM α) := fun s => Stepwise.refl s

theorem throw (e : Fault) : Preserves R (throw e : ImportM α) := fun s => Stepwise.refl s

theorem bind {m : ImportM α} {f : α → ImportM β} (hm : Preserves R m)
    (hf : ∀ a, Preserves R (f a)) : Preserves R (m >>= f) := by
  intro s
  rw [Runs.bind_iff]
  refine Runs.mono (hm s) (fun a t ht => ?_) fun _ _ h => h
  exact Runs.mono (hf a t) (fun _ _ h => Stepwise.trans ht h) fun _ _ h => Stepwise.trans ht h

theorem inside (calls : Nat) {m : ImportM α} (hm : Preserves R m) :
    Preserves R (inside calls m) := by
  intro s
  rw [runs_inside]
  split
  · exact Runs.mono (hm _) (fun _ _ h => Stepwise.inside _ h) fun _ _ h => Stepwise.inside _ h
  · exact Stepwise.refl s

theorem need (calls : Nat) : Preserves R (need calls) := inside calls (pure ())

theorem diagnose (source message : String) : Preserves R (diagnose source message) :=
  (need _).bind fun _ => modify fun s => Stepwise.report s _

theorem onTypeFault {m : ImportM α} {handle : Fault → ImportM α} (hm : Preserves R m)
    (hh : ∀ e, Preserves R (handle e)) : Preserves R (onTypeFault m handle) := by
  intro s
  rw [runs_onTypeFault]
  refine Runs.mono (hm s) (fun _ _ h => h) fun e t ht => ?_
  split
  · exact Runs.mono (hh e t) (fun _ _ h => Stepwise.trans ht h) fun _ _ h => Stepwise.trans ht h
  · exact ht

theorem onRejection {m : ImportM α} {handle : Fault → ImportM α} (hm : Preserves R m)
    (hh : ∀ e, Preserves R (handle e)) : Preserves R (onRejection m handle) := by
  intro s
  rw [runs_onRejection]
  refine Runs.mono (hm s) (fun _ _ h => h) fun e t ht => ?_
  split
  · exact Runs.mono (hh e t) (fun _ _ h => Stepwise.trans ht h) fun _ _ h => Stepwise.trans ht h
  · exact ht

/-- A view of the program changes nothing. -/
theorem view (f : Program → Except Fault α) : Preserves R (edit (Program.view f)) := by
  intro s
  rw [runs_edit, Program.runs_view]
  split <;> exact Stepwise.refl s

theorem pointerSize : Preserves R pointerSize := get fun s => by
  split
  · exact throw _
  · exact pure _

theorem addConstants (type : Json) (constants : List (Int × Json)) (values : Ledger Json Int) :
    Preserves R (addConstants type values constants) := by
  induction constants generalizing values with
  | nil => exact pure _
  | cons k rest ih =>
      simp only [Import.addConstants]
      split
      · exact throw _
      · split
        · exact (diagnose _ _).bind fun _ => ih _
        · exact ih _

theorem typeName (id : TypeId) : Preserves R (typeName id) := view _

theorem reportBase (shell : TypeId) (index : Nat) (e : Fault) :
    Preserves R (reportBase shell index e) :=
  (typeName shell).bind fun _ => diagnose _ _

theorem reportField (shell : TypeId) (name : Json) (e : Fault) :
    Preserves R (reportField shell name e) :=
  (typeName shell).bind fun _ => diagnose _ _

end

section

variable [Naming R]

theorem newNamed (name : Json) (shape : Shape) :
    Preserves R (edit (Program.newType (.named name shape))) :=
  fun s => Naming.pushNamed s name shape

theorem newUndefined (size : Int) : Preserves R (edit (Program.newUndefined size)) := by
  unfold Program.newUndefined
  split
  · exact fun s => Stepwise.refl s
  · exact newNamed _ _

theorem undefined1 : Preserves R undefined1 := newUndefined 1

theorem sizedType (id : TypeId) : Preserves R (edit (Program.sizedType (some id))) := by
  intro s
  rw [Runs, edit_sizedType]
  by_cases h : s.program.arena.length id ≤ 0
  · rw [if_pos h]
    exact undefined1 s
  · rw [if_neg h]
    exact Stepwise.refl s

theorem newSignature (name : Json) (returns : TypeId) (parameters : List TypeId) :
    Preserves R (newSignature name returns parameters) :=
  (need 2).bind fun _ => newNamed _ _

theorem newEnumeration (name : Json) (constants : List (Int × Json)) :
    Preserves R (newEnumeration name constants) :=
  (need 3).bind fun _ => (addConstants _ _ _).bind fun _ => newNamed _ _

theorem newShell (isRecord : Bool) (sizeBits : Int) (name : Json) :
    Preserves R (newShell isRecord sizeBits name) :=
  (need 3).bind fun _ => newNamed _ _

end

variable [Additive R]

theorem newType (t : TypeObject) : Preserves R (edit (Program.newType t)) :=
  fun s => Additive.push s t

theorem newArray (element : TypeId) (count : Int) :
    Preserves R (edit (Program.newArray element count)) := by
  intro s
  rw [runs_edit, Program.newArray, Runs.bind_iff]
  show Runs (if s.program.arena.length element ≤ 0 then _ else _ : Edit TypeId) s.program _ _
  split
  · rw [Runs.bind_iff, Program.typeName, Program.runs_view]
    split <;> exact Stepwise.refl s
  · split
    · exact Stepwise.refl s
    · exact newType _ s

theorem builtIn (c : BuiltInClass) : Preserves R (builtIn c) :=
  (need 3).bind fun _ => get fun s => by
    split
    · exact pure _
    · refine (newType _).bind fun _ => (modify ?_).bind fun _ => pure _
      exact fun s => Additive.share s _ rfl

theorem pointerTo (target : TypeId) : Preserves R (pointerTo target) :=
  (need 3).bind fun _ => pointerSize.bind fun _ => get fun s => by
    split
    · exact pure _
    · refine (newType _).bind fun _ => (modify ?_).bind fun _ => pure _
      exact fun s => Additive.share s _ rfl

theorem arrayOf (element : TypeId) (count : Int) : Preserves R (arrayOf element count) :=
  (need 3).bind fun _ => (sizedType element).bind fun _ => get fun s => by
    split
    · exact pure _
    · refine (newArray _ _).bind fun _ => (modify ?_).bind fun _ => pure _
      exact fun s => Additive.share s _ rfl

end Preserves

end StabsImport.Import

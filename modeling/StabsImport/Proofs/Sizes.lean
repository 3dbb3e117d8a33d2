import StabsImport.Proofs.Upkeep

/-!
# Types where a size is needed

An array is made of elements with a size, a signature of parameters with a size, and a composite of
components of which none is void. A type that has a size keeps it, since all that becomes of a type
is that it takes another name or other members. `Gives` tells what an action hands on besides,
where all that an import has made fits.
-/

namespace StabsImport

namespace TypeObject

def isVoid : TypeObject → Bool
  | named _ .void => true
  | _ => false

/-- What becomes of a type: it may take another name, and a composite other members. -/
inductive Lasts : TypeObject → TypeObject → Prop where
  | same (t : TypeObject) : Lasts t t
  | renamed (name name' : Json) (shape : Shape) : Lasts (named name shape) (named name' shape)
  | refilled (name name' : Json) (c c' : Composite) :
      Lasts (named name (.composite c)) (named name' (.composite c'))

theorem Lasts.trans {t t' t'' : TypeObject} (h : t.Lasts t') (h' : t'.Lasts t'') :
    t.Lasts t'' := by
  cases h with
  | same => exact h'
  | renamed => cases h' <;> constructor
  | refilled => cases h' <;> constructor

theorem Lasts.isVoid_eq {t t' : TypeObject} (h : t.Lasts t') : t'.isVoid = t.isVoid := by
  cases h with
  | renamed name name' shape => cases shape <;> rfl
  | _ => rfl

end TypeObject

/-! ## Arenas -/

namespace Arena

variable {a b c : Arena} {id : TypeId} {t t' : TypeObject}

/-- No type is taken away. -/
def Keeps (a b : Arena) : Prop :=
  ∀ id t, a.get? id = some t → ∃ t', b.get? id = some t' ∧ t.Lasts t'

/-- The type is there and is not void. -/
def IsSolid (a : Arena) (id : TypeId) : Prop := ∃ t, a.get? id = some t ∧ t.isVoid = false

/-- What a type is made of has a size, or at least is not void. -/
def Fits (a : Arena) : TypeObject → Prop
  | .array element _ => 0 < a.length element
  | .named _ (.signature _ parameters) => ∀ id ∈ parameters, 0 < a.length id
  | .named _ (.composite c) => ∀ m ∈ c.components, a.IsSolid m.type ∧ 0 < m.length
  | _ => True

def WellSized (a : Arena) : Prop := ∀ id t, a.get? id = some t → a.Fits t

namespace Keeps

theorem refl (a : Arena) : a.Keeps a := fun _ t h => ⟨t, h, .same t⟩

theorem trans (h : a.Keeps b) (h' : b.Keeps c) : a.Keeps c := by
  intro id t ht
  obtain ⟨t', ht', hl⟩ := h id t ht
  obtain ⟨t'', ht'', hl'⟩ := h' id t' ht'
  exact ⟨t'', ht'', hl.trans hl'⟩

theorem push (a : Arena) (t : TypeObject) : a.Keeps (a.push t) :=
  fun _ u hu => ⟨u, get?_push_of_get? t hu, .same u⟩

theorem set (h : a.get? id = some t) (hl : t.Lasts t') : a.Keeps (a.set id t') := by
  intro k u hu
  by_cases hk : k = id
  · subst hk
    obtain rfl : t = u := Option.some.inj (h.symm.trans hu)
    exact ⟨t', get?_set_self t' (lt_size_of_get? h), hl⟩
  · exact ⟨u, by rw [get?_set_of_ne a t' hk, hu], .same u⟩

theorem lt_size (h : a.Keeps b) (hid : id < a.size) : id < b.size := by
  obtain ⟨t', ht', -⟩ := h id _ (Array.getElem?_eq_getElem hid)
  exact lt_size_of_get? ht'

theorem isSolid (h : a.Keeps b) (hid : a.IsSolid id) : b.IsSolid id := by
  obtain ⟨t, ht, hsolid⟩ := hid
  obtain ⟨t', ht', hl⟩ := h id t ht
  exact ⟨t', ht', hl.isVoid_eq.trans hsolid⟩

/-- What has a length keeps its sign. Members may grow a composite, but give none a length. -/
theorem sign_lengthWithin (h : a.Keeps b) {fuel : Nat} (hne : a.lengthWithin fuel id ≠ 0) :
    (b.lengthWithin fuel id).sign = (a.lengthWithin fuel id).sign := by
  induction fuel generalizing id with
  | zero => exact absurd rfl hne
  | succ fuel ih =>
      cases ht : a.get? id with
      | none => exact absurd (by simp only [lengthWithin, ht]) hne
      | some t =>
          obtain ⟨t', ht', hl⟩ := h id t ht
          cases hl with
          | same =>
              cases t with
              | named name shape => simp only [lengthWithin, ht, ht']
              | pointer target size => simp only [lengthWithin, ht, ht']
              | array element count =>
                  simp only [lengthWithin, ht] at hne
                  simp only [lengthWithin, ht, ht', Int.sign_mul]
                  rw [ih fun h0 => hne (by rw [h0, Int.zero_mul])]
          | renamed => simp only [lengthWithin, ht, ht']
          | refilled =>
              have pos (size : Int) : (if size > 0 then size else 1).sign = 1 :=
                Int.sign_eq_one_of_pos (by split <;> omega)
              simp only [lengthWithin, ht, ht', pos]

theorem length_pos (h : a.Keeps b) (hid : 0 < a.length id) : 0 < b.length id := by
  rw [← Int.sign_eq_one_iff_pos] at hid ⊢
  rw [← hid]
  apply h.sign_lengthWithin
  intro h0
  rw [length, h0] at hid
  cases hid

theorem fits (h : a.Keeps b) (ht : a.Fits t) : b.Fits t := by
  unfold Fits at ht ⊢
  split
  · exact h.length_pos ht
  · exact fun id hid => h.length_pos (ht id hid)
  · exact fun m hm => ⟨h.isSolid (ht m hm).1, (ht m hm).2⟩
  · trivial

end Keeps

theorem isSolid_of_length_pos (h : 0 < a.length id) : a.IsSolid id := by
  rw [length, lengthWithin] at h
  cases ht : a.get? id with
  | none => simp [ht] at h
  | some t =>
      refine ⟨t, ht, Bool.eq_false_iff.mpr fun hvoid => ?_⟩
      unfold TypeObject.isVoid at hvoid
      split at hvoid
      · simp [ht] at h
      · cases hvoid

theorem IsSolid.lt_size (h : a.IsSolid id) : id < a.size := by
  obtain ⟨t, ht, -⟩ := h
  exact lt_size_of_get? ht

namespace WellSized

theorem empty : ({} : Arena).WellSized := by
  intro id t ht
  simp [get?] at ht

theorem push (h : a.WellSized) (ht : a.Fits t) : (a.push t).WellSized := by
  intro id u hu
  apply (Keeps.push a t).fits
  rcases get?_push_cases hu with ⟨-, rfl⟩ | hu
  · exact ht
  · exact h id u hu

theorem set (h : a.WellSized) (hid : a.get? id = some t) (hl : t.Lasts t') (ht : a.Fits t') :
    (a.set id t').WellSized := by
  intro k u hu
  apply (Keeps.set hid hl).fits
  by_cases hk : k = id
  · subst hk
    rw [get?_set_self t' (lt_size_of_get? hid)] at hu
    cases hu
    exact ht
  · rw [get?_set_of_ne a t' hk] at hu
    exact h k u hu

end WellSized

end Arena

/-! ## Programs and sessions -/

/-- The types of a function's locals have a size in the arena, and those of its parameters are not
void. -/
structure Function.UsesSized (f : Function) (a : Arena) : Prop where
  parameters : ∀ q ∈ f.parameters, a.IsSolid q.type
  locals : ∀ v ∈ f.locals, 0 < a.length v.type

namespace Program

structure UsesSized (p : Program) (a : Arena) : Prop where
  functions : ∀ f ∈ p.functions.values, f.UsesSized a
  data : ∀ item ∈ p.data.values, 0 < a.length item.type ∧ 0 < item.length

structure WellSized (p : Program) : Prop where
  types : p.arena.WellSized
  registered : ∀ {name id}, p.registry.get? name = some id → id < p.arena.size
  uses : p.UsesSized p.arena

/-- The program is well sized, and no type was taken away. -/
structure Grown (p q : Program) : Prop where
  wellSized : q.WellSized
  keeps : p.arena.Keeps q.arena

theorem UsesSized.keeps {p : Program} {a b : Arena} (h : p.UsesSized a) (hk : a.Keeps b) :
    p.UsesSized b where
  functions f hf :=
    { parameters := fun q hq => hk.isSolid ((h.functions f hf).parameters q hq)
      locals := fun v hv => hk.length_pos ((h.functions f hf).locals v hv) }
  data item hi := ⟨hk.length_pos (h.data item hi).1, (h.data item hi).2⟩

theorem Grown.refl {p : Program} (h : p.WellSized) : p.Grown p := ⟨h, .refl _⟩

/-- Other types go with the same variables and data. -/
theorem WellSized.withTypes {p : Program} (h : p.WellSized) {arena : Arena}
    {registry : Ledger Json TypeId} (types : arena.WellSized) (keeps : p.arena.Keeps arena)
    (registered : ∀ {name id}, registry.get? name = some id → id < arena.size) :
    p.Grown { p with arena, registry } where
  wellSized := ⟨types, registered, { h.uses.keeps keeps with }⟩
  keeps := keeps

end Program

namespace Import

variable {s t : Session} {α β : Type} {m : ImportM α} {f : α → ImportM β}
  {ok : α → Arena → Prop} {good : β → Arena → Prop}

/-- The program is well sized, and all that resolution shares is among its types. -/
structure Session.WellSized (s : Session) : Prop where
  program : s.program.WellSized
  builtIns : ∀ {c id}, s.cache.builtIns.get? c = some id → id < s.program.arena.size
  pointers : ∀ {k id}, s.cache.pointers.get? k = some id → s.program.arena.IsSolid id
  arrays : ∀ {k id}, s.cache.arrays.get? k = some id → id < s.program.arena.size
  nodes : ∀ {k id}, s.cache.nodes.get? k = some id → id < s.program.arena.size
  entries : ∀ {k id}, s.typeAt? k = some id → id < s.program.arena.size

structure Grown (s t : Session) : Prop where
  wellSized : t.WellSized
  keeps : s.program.arena.Keeps t.program.arena

def StaysSized (s t : Session) : Prop := s.WellSized → Grown s t

theorem Grown.refl (h : s.WellSized) : Grown s s := ⟨h, .refl _⟩

theorem Grown.trans {u : Session} (h : Grown s t) (h' : Grown t u) : Grown s u :=
  ⟨h'.wellSized, h.keeps.trans h'.keeps⟩

theorem Session.WellSized.withProgram (h : s.WellSized) {p : Program}
    (hp : s.program.Grown p) : Grown s { s with program := p } where
  wellSized :=
    { program := hp.wellSized
      builtIns := fun hc => hp.keeps.lt_size (h.builtIns hc)
      pointers := fun hk => hp.keeps.isSolid (h.pointers hk)
      arrays := fun hk => hp.keeps.lt_size (h.arrays hk)
      nodes := fun hk => hp.keeps.lt_size (h.nodes hk)
      entries := fun hk => hp.keeps.lt_size (h.entries hk) }
  keeps := hp.keeps

instance : Upkeep Session.WellSized Grown where
  fits h := h.wellSized
  refl := .refl
  trans _ h h' := h.trans h'
  report hs _ := ⟨{ hs with }, .refl _⟩
  inside hs _ := ⟨{ hs with }, fun h => ⟨{ h.wellSized with }, h.keeps⟩⟩

instance : Stepwise StaysSized := inferInstanceAs (Stepwise (KeptUp Session.WellSized Grown))

/-- From a well sized session the action leads to another, and with a value to one whose types go
with it. -/
def Gives (s : Session) (m : ImportM α) (ok : α → Arena → Prop) : Prop :=
  s.WellSized → Runs m s (fun a t => Grown s t ∧ ok a t.program.arena) fun _ t => Grown s t

namespace Gives

theorem of (h : Preserves StaysSized m) : Gives s m fun _ _ => True := Secures.of h

theorem preserves (h : ∀ s, Gives s m ok) : Preserves StaysSized m := Secures.preserves h

theorem staysSized (h : ∀ s, Gives s m fun _ _ => True) : Preserves StaysSized m := preserves h

theorem mono {wide : α → Arena → Prop} (h : Gives s m ok) (sub : ∀ a b, ok a b → wide a b) :
    Gives s m wide :=
  Secures.mono h sub

theorem pure {a : α} (h : ok a s.program.arena) : Gives s (pure a) ok := Secures.pure h

theorem throw (e : Fault) : Gives s (throw e : ImportM α) ok := Secures.throw e

theorem bind (h : Gives s m ok)
    (hf : ∀ a t, s.program.arena.Keeps t.program.arena → ok a t.program.arena →
      Gives t (f a) good) : Gives s (m >>= f) good :=
  Secures.bind h fun a t ht => hf a t ht.keeps

/-- Nothing is made of the value. -/
theorem after (h : Preserves StaysSized m)
    (hf : ∀ a t, s.program.arena.Keeps t.program.arena → Gives t (f a) good) :
    Gives s (m >>= f) good :=
  Secures.after h fun a t ht => hf a t ht.keeps

theorem get {f : Session → ImportM α} (h : Gives s (f s) ok) : Gives s (get >>= f) ok := h

theorem inside (calls : Nat) (h : ∀ s, Gives s m ok) : Gives s (inside calls m) ok :=
  Secures.inside calls h

theorem onRejection {handle : Fault → ImportM α} (h : Gives s m ok)
    (hh : ∀ e t, Gives t (handle e) ok) : Gives s (onRejection m handle) ok :=
  Secures.onRejection h hh

/-- What is recorded beside the program is among its types. -/
theorem record {f : Session → Session} {P : Arena → Prop}
    (h : s.WellSized → (f s).WellSized ∧ (f s).program = s.program ∧ P s.program.arena) :
    Gives s (modify f : ImportM PUnit) fun _ a => P a := by
  intro hs
  obtain ⟨sized, program, ha⟩ := h hs
  rw [Runs.modify_iff, program]
  exact ⟨⟨sized, by rw [program]; exact .refl _⟩, ha⟩

theorem edit {e : Edit α} (h : s.program.WellSized → Runs e s.program
    (fun a q => s.program.Grown q ∧ ok a q.arena) fun _ q => s.program.Grown q) :
    Gives s (edit e) ok := by
  intro hs
  rw [runs_edit]
  exact Runs.mono (h hs.program) (fun _ _ h => ⟨hs.withProgram h.1, h.2⟩)
    fun _ _ h => hs.withProgram h

end Gives

end Import

end StabsImport

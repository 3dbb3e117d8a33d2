import Mathlib.Data.Option.Defs
import StabsImport.Proofs.Supply

/-!
# The same work in two sessions

Two sessions may hold the same types under different numbers. What is done with types that go
together gives types that go together, and ends with the same faults, so whatever holds between the
sessions and is kept up where single types are made, members are placed and types are recorded is
kept up by all of resolution. Main statements: `Concord.createType`, `Concord.typeAt`.
-/

namespace StabsImport.Import

open Document (Node Base Variable TypeReference BuiltInClass)

variable {α β : Type} {s s' t t' u u' : Session}

/-- What holds between two sessions, and which types of the one go together with which of the
other. -/
structure Bond where
  related : Session → Session → Prop
  paired : Session → Session → TypeId → TypeId → Prop

namespace Bond

variable {B : Bond}

/-- The second two are related, and types that went together in the first two go together still. -/
structure Onward (B : Bond) (s s' t t' : Session) : Prop where
  related : B.related t t'
  paired : ∀ {x y}, B.paired s s' x y → B.paired t t' x y

/-- Both end with values that go together, or with the same fault. -/
inductive Ends (B : Bond) (s s' : Session) (V : α → α → Session → Session → Prop) :
    Except Fault α × Session → Except Fault α × Session → Prop where
  | ok {a a' : α} {t t' : Session} (onward : B.Onward s s' t t') (values : V a a' t t') :
      Ends B s s' V (.ok a, t) (.ok a', t')
  | error {e : Fault} {t t' : Session} (onward : B.Onward s s' t t') :
      Ends B s s' V (.error e, t) (.error e, t')

/-- Done in related sessions, the two keep them so and end alike. -/
def Abreast (B : Bond) (s s' : Session) (m m' : ImportM α)
    (V : α → α → Session → Session → Prop) : Prop :=
  B.related s s' → B.Ends s s' V (m s) (m' s')

/-- Values that are equal go together. -/
def Same (a a' : α) (_ _ : Session) : Prop := a = a'

/-- Of values that tell nothing any two go together. -/
def Any (_ _ : α) (_ _ : Session) : Prop := True

/-- Types that go together. -/
def Types (B : Bond) (x y : TypeId) (t t' : Session) : Prop := B.paired t t' x y

/-- Lists of types that go together one by one. -/
def TypeLists (B : Bond) (xs ys : List TypeId) (t t' : Session) : Prop :=
  List.Forall₂ (B.paired t t') xs ys

/-- What goes together goes together still in sessions that come after. -/
def Lasts (B : Bond) (V : α → α → Session → Session → Prop) : Prop :=
  ∀ a a' t t' u u', B.Onward t t' u u' → V a a' t t' → V a a' u u'

/-- It makes types that go together. -/
def Makes (B : Bond) (m : ImportM TypeId) : Prop := ∀ s s', B.Abreast s s' m m B.Types

namespace Onward

theorem refl (h : B.related s s') : B.Onward s s' s s' := ⟨h, id⟩

theorem trans (h : B.Onward s s' t t') (h' : B.Onward t t' u u') : B.Onward s s' u u' :=
  ⟨h'.related, fun hxy => h'.paired (h.paired hxy)⟩

end Onward

theorem lasts_types : B.Lasts B.Types := fun _ _ _ _ _ _ onward => onward.paired

theorem lasts_typeLists : B.Lasts B.TypeLists := fun _ _ _ _ _ _ onward h =>
  List.Forall₂.imp (fun _ _ => onward.paired) h

theorem lasts_any : B.Lasts (@Any α) := fun _ _ _ _ _ _ _ _ => trivial

theorem Ends.after {V : α → α → Session → Session → Prop} {r r' : Except Fault α × Session}
    (h : B.Onward s s' t t') (hr : B.Ends t t' V r r') : B.Ends s s' V r r' := by
  cases hr with
  | ok onward values => exact .ok (h.trans onward) values
  | error onward => exact .error (h.trans onward)

namespace Abreast

variable {m m' : ImportM α} {f f' : α → ImportM β} {V V' : α → α → Session → Session → Prop}
  {W : β → β → Session → Session → Prop}

theorem mono (h : B.Abreast s s' m m' V) (sub : ∀ a a' t t', V a a' t t' → V' a a' t t') :
    B.Abreast s s' m m' V' := by
  intro hs
  have ends := h hs
  revert ends
  generalize m s = r, m' s' = r'
  rintro (⟨onward, values⟩ | onward)
  · exact .ok onward (sub _ _ _ _ values)
  · exact .error onward

theorem pure {a a' : α} (h : V a a' s s') : B.Abreast s s' (pure a) (pure a') V :=
  fun hs => .ok (.refl hs) h

theorem throw (e : Fault) : B.Abreast s s' (throw e : ImportM α) (throw e) V :=
  fun hs => .error (.refl hs)

theorem bind (h : B.Abreast s s' m m' V)
    (hf : ∀ a a' t t', B.Onward s s' t t' → V a a' t t' → B.Abreast t t' (f a) (f' a') W) :
    B.Abreast s s' (m >>= f) (m' >>= f') W := by
  intro hs
  have ends := h hs
  rw [Runs.bind_apply, Runs.bind_apply]
  revert ends
  generalize m s = r, m' s' = r'
  rintro (⟨onward, values⟩ | onward)
  · exact .after onward (hf _ _ _ _ onward values onward.related)
  · exact .error onward

theorem get {f f' : Session → ImportM α} (h : B.related s s' → B.Abreast s s' (f s) (f' s') V) :
    B.Abreast s s' (get >>= f) (get >>= f') V := fun hs => h hs hs

theorem modify {f f' : Session → Session} (h : B.related s s' → B.Onward s s' (f s) (f' s')) :
    B.Abreast s s' (modify f : ImportM PUnit) (modify f') Any :=
  fun hs => .ok (h hs) trivial

theorem onTypeFault {handle handle' : Fault → ImportM α} (h : B.Abreast s s' m m' V)
    (hh : ∀ e t t', B.Onward s s' t t' → B.Abreast t t' (handle e) (handle' e) V) :
    B.Abreast s s' (onTypeFault m handle) (onTypeFault m' handle') V := by
  intro hs
  have ends := h hs
  rw [Import.onTypeFault, Import.onTypeFault, Runs.tryCatch_apply, Runs.tryCatch_apply]
  revert ends
  generalize m s = r, m' s' = r'
  rintro (⟨onward, values⟩ | onward)
  · exact .ok onward values
  · dsimp only
    split
    · exact .after onward (hh _ _ _ onward onward.related)
    · exact .error onward

end Abreast

end Bond

open Bond

/-- What making single types, placing members and recording types come to in related sessions, given
types that go together. Names of types are texts if sessions are told to be `strict`. -/
structure Concord (B : Bond) (strict : Prop) : Prop where
  wellTyped {s s' : Session} (h : B.related s s') : strict → s.document.WellTyped
  documentTypes {s s' : Session} (h : B.related s s') : s'.document.types = s.document.types
  room {s s' : Session} (h : B.related s s') : s'.room = s.room
  enter {s s' : Session} (h : B.related s s') {calls : Nat} (allowed : s.room.allows calls = true) :
    B.Onward s s' { s with room := s.room.inside calls } { s' with room := s.room.inside calls }
  leave {s s' t t' : Session} (h : B.related s s') (ht : B.related t t') :
    B.Onward t t' { t with room := s.room } { t' with room := s.room }
  report {s s' : Session} (h : B.related s s') (n : Notice) :
    B.Onward s s' { s with journal := s.journal.push n } { s' with journal := s'.journal.push n }
  lookUp {s s' : Session} (r : TypeReference) : B.Abreast s s' (lookUp r) (lookUp r) Same
  knownEntry {s s' : Session} (opened : List Nat) (index : Int) :
    B.Abreast s s' ( knownEntry? opened index) ( knownEntry? opened index) fun o o' t t' =>
      Option.Rel (B.paired t t') o o' ∧ (o = none → t.typeAt? index.toNat = none)
  setEntry {s s' : Session} {x y : TypeId} (h : B.paired s s' x y) (k : Nat) :
    B.Abreast s s' (setEntry k x) (setEntry k y) Any
  cached {s s' : Session} (serial : Nat) : B.Abreast s s' (cached? serial) (cached? serial)
    fun o o' t t' => Option.Rel (B.paired t t') o o'
  cacheNode {s s' : Session} {x y : TypeId} (h : B.paired s s' x y) (serial : Nat) :
    B.Abreast s s' (cacheNode serial x) (cacheNode serial y) Any
  typeName {s s' : Session} {x y : TypeId} (h : B.paired s s' x y) :
    B.Abreast s s' (typeName x) (typeName y) Same
  pointerSize {s s' : Session} : B.Abreast s s' pointerSize pointerSize Same
  newUndefined (size : Int) : B.Makes (edit (Program.newUndefined size))
  sizedType {s s' : Session} {x y : TypeId} (h : B.paired s s' x y) :
    B.Abreast s s' (edit (Program.sizedType (some x))) (edit (Program.sizedType (some y))) B.Types
  builtIn (c : BuiltInClass) : B.Makes (builtIn c)
  pointerTo {s s' : Session} {x y : TypeId} (h : B.paired s s' x y) :
    B.Abreast s s' (pointerTo x) (pointerTo y) B.Types
  arrayOf {s s' : Session} {x y : TypeId} (h : B.paired s s' x y) (count : Int) :
    B.Abreast s s' (arrayOf x count) (arrayOf y count) B.Types
  newSignature {s s' : Session} {name : Json} {x y : TypeId} {xs ys : List TypeId}
    (hname : Named strict name) (returns : B.paired s s' x y)
    (parameters : List.Forall₂ (B.paired s s') xs ys) :
    B.Abreast s s' (newSignature name x xs) (newSignature name y ys) B.Types
  newEnumeration {name : Json} (hname : Named strict name) (constants : List (Int × Json)) :
    B.Makes (newEnumeration name constants)
  newShell {name : Json} (hname : Named strict name) (isRecord : Bool) (sizeBits : Int) :
    B.Makes (newShell isRecord sizeBits name)
  placeBase {s s' : Session} {shell shell' x y : TypeId} (hshell : B.paired s s' shell shell')
    (h : B.paired s s' x y) (index : Nat) (offset : Int) :
    B.Abreast s s' (placeBase shell index offset x) (placeBase shell' index offset y) Any
  placeField {s s' : Session} {shell shell' x y : TypeId} {name : Json}
    (hshell : B.paired s s' shell shell') (h : B.paired s s' x y) (hname : Named strict name)
    (field : Node) :
    B.Abreast s s' (placeField shell field name x) (placeField shell' field name y) Any
  placeBitField {s s' : Session} {shell shell' x y : TypeId} {name : Json}
    (hshell : B.paired s s' shell shell') (h : B.paired s s' x y) (hname : Named strict name)
    (field : Node) (offsetBits : Int) :
    B.Abreast s s' (placeBitField shell field offsetBits name x)
      (placeBitField shell' field offsetBits name y) Any
  /-- Where an entry has no type yet, what is made for it may be registered. -/
  register {s s' : Session} {k : Nat} {node : Node} (entry : s.document.types[k]? = some node)
    (nominal : node.isNominal = true) (unset : s.typeAt? k = none) {type : ImportM TypeId}
    (h : B.Makes type) : B.Abreast s s' (type >>= fun id => edit (Program.addType id))
      (type >>= fun id => edit (Program.addType id)) B.Types

namespace Concord

variable {B : Bond} {strict : Prop} {enter : Int → ImportM TypeId} (concord : Concord B strict)

include concord

theorem inside {m m' : ImportM α} {V : α → α → Session → Session → Prop} (calls : Nat)
    (lasts : B.Lasts V) (h : ∀ t t', B.Onward s s' t t' → B.Abreast t t' m m' V) :
    B.Abreast s s' (inside calls m) (inside calls m') V := by
  intro hs
  unfold Import.inside
  rw [concord.room hs]
  split
  · next allowed =>
      have entered := concord.enter hs allowed
      have ends := h _ _ entered entered.related
      revert ends
      generalize m _ = r, m' _ = r'
      rintro (⟨onward, values⟩ | onward)
      · have left := concord.leave hs onward.related
        exact .ok ((entered.trans onward).trans left) (lasts _ _ _ _ _ _ left values)
      · exact .error ((entered.trans onward).trans (concord.leave hs onward.related))
  · exact .error (.refl hs)

theorem makes_inside {m : ImportM TypeId} (calls : Nat) (h : B.Makes m) :
    B.Makes (Import.inside calls m) :=
  fun _ _ => concord.inside calls lasts_types fun t t' _ => h t t'

theorem need (calls : Nat) : B.Abreast s s' (need calls) (need calls) Any :=
  concord.inside calls lasts_any fun _ _ _ => .pure trivial

theorem diagnose (source message : String) :
    B.Abreast s s' (diagnose source message) (diagnose source message) Any :=
  (concord.need _).bind fun _ _ _ _ _ _ => .modify fun h => concord.report h _

/-- What cannot be made is reported and replaced. -/
theorem undefinedFor (source message : String) :
    B.Makes (do Import.diagnose source message; undefined1) := fun _ _ =>
  (concord.diagnose _ _).bind fun _ _ t t' _ _ => concord.newUndefined 1 t t'

/-! ## The walk over a node -/

theorem resolveReference (he : ∀ index, B.Makes (enter index)) (r : TypeReference) :
    B.Makes (resolveReference enter r) := by
  intro s s'
  unfold Import.resolveReference
  split
  · exact concord.builtIn _ s s'
  · refine (concord.need 2).bind fun _ _ _ _ _ _ =>
      (concord.lookUp r).bind fun found _ t t' _ hfound => ?_
    obtain rfl := hfound
    cases found with
    | some index => exact he index t t'
    | none => exact concord.undefinedFor _ _ t t'

theorem variableType {type : ImportM TypeId} (h : B.Makes type) : B.Makes (variableType type) :=
  fun s s' => .onTypeFault ((h s s').bind fun _ _ _ _ _ hxy => concord.sizedType hxy)
    fun _ t t' _ => concord.undefinedFor _ _ t t'

theorem parameterTypes {vs : List Variable}
    (h : ∀ v ∈ vs, B.Makes (createType enter v.type .null)) :
    B.Abreast s s' (parameterTypes enter vs) (parameterTypes enter vs) B.TypeLists := by
  induction vs generalizing s s' with
  | nil =>
      rw [parameterTypes_nil]
      exact .pure .nil
  | cons v rest ih =>
      rw [Import.parameterTypes]
      refine (concord.variableType (h v List.mem_cons_self) s s').bind fun x y t t' _ hxy => ?_
      refine (ih fun w hw => h w (List.mem_cons_of_mem _ hw)).bind fun xs ys u u' onward hrest => ?_
      exact .pure (.cons (onward.paired hxy) hrest)

variable {shell shell' : TypeId}

theorem fillBases {bases : List Base} (h : ∀ b ∈ bases, B.Makes (createType enter b.type .null))
    (hshell : B.paired s s' shell shell') (index : Nat) :
    B.Abreast s s' (fillBases enter shell index bases) (fillBases enter shell' index bases) Any := by
  induction bases generalizing s s' index with
  | nil =>
      rw [fillBases_nil, fillBases_nil]
      exact .pure trivial
  | cons b rest ih =>
      rw [Import.fillBases, Import.fillBases]
      refine Abreast.bind (V := Any) (.onTypeFault ?_ fun e t t' onward => ?_) fun _ _ t t' onward _ =>
        ih (fun c hc => h c (List.mem_cons_of_mem _ hc)) (onward.paired hshell) _
      · exact (h b List.mem_cons_self s s').bind fun x y t t' onward hxy =>
          concord.placeBase (onward.paired hshell) hxy index b.offset
      · refine (concord.typeName (onward.paired hshell)).bind fun name _ u u' _ hname => ?_
        obtain rfl := hname
        exact concord.diagnose _ _

theorem reportField (hshell : B.paired s s' shell shell') (name : Json) (e : Fault) :
    B.Abreast s s' (reportField shell name e) (reportField shell' name e) Any := by
  refine (concord.typeName hshell).bind fun own _ t t' _ hown => ?_
  obtain rfl := hown
  exact concord.diagnose _ _

theorem fillFields {fields : List Node}
    (named : strict → ∀ f ∈ fields, f.name.IsName)
    (h : ∀ f ∈ fields, ∀ hint, B.Makes (createType enter f (.text hint)))
    (hbits : ∀ c offsetBits underlying, .bitField c offsetBits underlying ∈ fields →
      B.Makes (createType enter underlying .null))
    (hshell : B.paired s s' shell shell') (index : Nat) :
    B.Abreast s s' (fillFields enter shell index fields) (fillFields enter shell' index fields)
      Any := by
  induction fields generalizing s s' index with
  | nil =>
      rw [fillFields_nil, fillFields_nil]
      exact .pure trivial
  | cons f rest ih =>
      have later {t t' : Session} (ht : B.paired t t' shell shell') :
          B.Abreast t t' (Import.fillFields enter shell (index + 1) rest)
            (Import.fillFields enter shell' (index + 1) rest) Any :=
        ih (fun hs g hg => named hs g (List.mem_cons_of_mem _ hg))
          (fun g hg => h g (List.mem_cons_of_mem _ hg))
          (fun c o u hg => hbits c o u (List.mem_cons_of_mem _ hg)) ht _
      have hname : Named strict (fieldName f index) :=
        .nameOr (fun hs => named hs f List.mem_cons_self) (fun _ => .inl rfl) _
      rcases f.isBitField_or with ⟨c, offsetBits, underlying, rfl⟩ | hb
      · simp only [Import.fillFields]
        refine Abreast.bind (V := Any) (.onTypeFault (concord.inside 2 lasts_any fun t t' entered => ?_)
          fun e t t' onward => concord.reportField (onward.paired hshell) _ e)
          fun _ _ t t' onward _ => later (onward.paired hshell)
        refine (hbits c offsetBits underlying List.mem_cons_self t t').bind fun x y u u' onward hxy => ?_
        exact concord.placeBitField (onward.paired (entered.paired hshell)) hxy hname _ offsetBits
      · rw [fillFields.eq_3 _ _ _ _ _ hb, fillFields.eq_3 _ _ _ _ _ hb]
        refine Abreast.bind (V := Any) (.onTypeFault (concord.inside 1 lasts_any fun t t' entered => ?_)
          fun e t t' onward => concord.reportField (onward.paired hshell) _ e)
          fun _ _ t t' onward _ => later (onward.paired hshell)
        refine (concord.typeName (entered.paired hshell)).bind fun own _ u u' onward hown => ?_
        obtain rfl := hown
        refine (h f List.mem_cons_self _ u u').bind fun x y v v' onward' hxy => ?_
        exact concord.placeField (onward'.paired (onward.paired (entered.paired hshell))) hxy hname f

theorem fill {isRecord : Bool} {bases : List Base} {fields : List Node}
    (named : strict → ∀ f ∈ fields, f.name.IsName)
    (hb : isRecord = true → ∀ b ∈ bases, B.Makes (createType enter b.type .null))
    (hf : ∀ f ∈ fields, ∀ hint, B.Makes (createType enter f (.text hint)))
    (hbits : ∀ c offsetBits underlying, .bitField c offsetBits underlying ∈ fields →
      B.Makes (createType enter underlying .null)) (hshell : B.paired s s' shell shell') :
    B.Abreast s s' (fill enter shell isRecord bases fields) (fill enter shell' isRecord bases fields)
      Any := by
  refine concord.inside 1 lasts_any fun t t' entered => ?_
  have hfields {t t' : Session} (ht : B.paired t t' shell shell') :=
    concord.fillFields named hf hbits ht 0
  cases isRecord with
  | false => exact hfields (entered.paired hshell)
  | true =>
      exact (concord.fillBases (hb rfl) (entered.paired hshell) 0).bind fun _ _ u u' onward _ =>
        hfields (onward.paired (entered.paired hshell))

/-- What is made for a node is recorded under its number before anything else is done to it. -/
theorem orCached {serial : Nat} {m : ImportM TypeId} {f : TypeId → ImportM TypeId}
    (hm : B.Makes m)
    (hf : ∀ x y t t', B.paired t t' x y → B.Abreast t t' (f x) (f y) B.Types) :
    B.Makes (orCached serial do
      let id ← m
      Import.cacheNode serial id
      f id) := by
  intro s s'
  refine (concord.cached serial).bind fun o o' t t' _ ho => ?_
  cases ho with
  | some hxy => exact .pure hxy
  | none =>
      refine (hm t t').bind fun x y u u' _ hxy => ?_
      exact (concord.cacheNode hxy serial).bind fun _ _ v v' onward _ => hf x y v v' (onward.paired hxy)

/-- Making the type of a node gives types that go together if entering the table does. -/
theorem createType (he : ∀ index, B.Makes (enter index)) {node : Node}
    (typed : strict → node.WellTyped) {hint : Json} (hh : strict → hint.IsName) :
    B.Makes (createType enter node hint) := by
  -- on the height, since the lists of a node's parts are not parts themselves
  induction hheight : node.height using Nat.strongRecOn generalizing node hint with
  | ind height ih =>
  subst hheight
  have part {m : Node} (hm : m ∈ node.parts) {hint : Json} (hh : strict → hint.IsName) :
      B.Makes (Import.createType enter m hint) :=
    ih m.height (Node.height_lt_of_mem_parts hm) (fun h => (typed h).part hm) hh rfl
  have unnamed : strict → Json.null.IsName := fun _ => .inl rfl
  have underlying {c : Document.Common} {offsetBits : Int} {m : Node}
      (hm : .bitField c offsetBits m ∈ node.parts) :
      B.Makes (Import.createType enter m .null) := by
    have hlt : m.height < (Node.bitField c offsetBits m).height :=
      Node.height_lt_of_mem_parts (List.mem_singleton_self m)
    exact ih m.height (Nat.lt_trans hlt (Node.height_lt_of_mem_parts hm))
      (fun h => ((typed h).part hm).part (List.mem_singleton_self m)) unnamed rfl
  have named (otherwise : String) : Named strict (nameOr node.name hint otherwise) :=
    .nameOr (fun h => (typed h).typed.name) hh otherwise
  cases node with
  | typeName c r =>
      rw [createType_typeName]
      exact concord.makes_inside 2 (concord.resolveReference he r)
  | builtIn c b =>
      rw [Import.createType]
      exact concord.makes_inside 1 (concord.builtIn b)
  | pointer c p target =>
      rw [Import.createType]
      exact concord.makes_inside 1 fun s s' => (part (List.mem_singleton_self target) unnamed s s').bind
        fun _ _ _ _ _ hxy => concord.pointerTo hxy
  | array c element count =>
      rw [Import.createType]
      exact concord.makes_inside 1 fun s s' => (part (List.mem_singleton_self element) unnamed s s').bind
        fun _ _ _ _ _ hxy => concord.arrayOf hxy count
  | bitField c o u =>
      rw [Import.createType]
      exact concord.makes_inside 1 (part (List.mem_singleton_self u) unnamed)
  | memberPointer c k m =>
      rw [Import.createType]
      refine concord.makes_inside 1 fun s s' => (concord.need 2).bind fun _ _ _ _ _ _ =>
        concord.pointerSize.bind fun size _ t t' _ hsize => ?_
      obtain rfl := hsize
      exact concord.newUndefined size t t'
  | functionType f =>
      have returns : B.Makes (returnTypeOf enter f.returnType) := by
        cases hr : f.returnType with
        | none => exact concord.builtIn _
        | some n => exact part (List.mem_append_left _ (by simp [hr])) unnamed
      have formals (s s' : Session) : B.Abreast s s' (formalTypesOf enter f.parameters)
          (formalTypesOf enter f.parameters) B.TypeLists := by
        cases hp : f.parameters with
        | none => exact .pure .nil
        | some vs =>
            refine concord.inside 2 lasts_typeLists fun t t' _ => concord.parameterTypes fun v hv =>
              part ?_ unnamed
            exact List.mem_append_right _ (List.mem_map_of_mem (by simpa [hp] using hv))
      have made : B.Makes (do
          let returns ← returnTypeOf enter f.returnType
          let parameters ← formalTypesOf enter f.parameters
          Import.newSignature (nameOr f.common.name hint "__anon_function") returns parameters) :=
        fun s s' => (returns s s').bind fun _ _ t t' _ hreturns => (formals t t').bind
          fun _ _ _ _ onward hparameters =>
            concord.newSignature (named _) (onward.paired hreturns) hparameters
      have recorded : B.Makes (Import.orCached f.common.serial _) :=
        concord.orCached made fun _ _ _ _ h => .pure h
      simp only [bind_assoc] at recorded
      rw [createType_functionType]
      exact concord.makes_inside 2 recorded
  | enumeration c constants =>
      rw [Import.createType]
      exact concord.makes_inside 1 (concord.orCached (concord.newEnumeration (named _) constants)
        fun _ _ _ _ h => .pure h)
  | composite c isRecord bases fields members =>
      have filled {x y : TypeId} {s s' : Session} (hxy : B.paired s s' x y) :
          B.Abreast s s' (Import.fill enter x isRecord bases fields)
            (Import.fill enter y isRecord bases fields) Any := by
        refine concord.fill (fun h f hf => ?_) ?_ (fun f hf hint => ?_) (fun _ _ _ hu => ?_) hxy
        · exact ((typed h).part (Node.mem_parts_of_mem_fields hf)).typed.name
        · rintro rfl b hb
          exact part (Node.mem_parts_of_mem_bases hb) unnamed
        · exact part (Node.mem_parts_of_mem_fields hf) (Named.text hint).isName
        · exact underlying (Node.mem_parts_of_mem_fields hu)
      rw [Import.createType]
      exact concord.makes_inside 1 (concord.orCached (concord.newShell (named _) _ _)
        fun x y t t' hxy => (filled hxy).bind fun _ _ _ _ onward _ => .pure (onward.paired hxy))
  | variable_ | functionDefinition | sourceFile =>
      rw [Import.createType]
      exact fun _ _ => .throw _

/-! ## Entries of the table -/

theorem fillNode (he : ∀ index, B.Makes (enter index)) (hshell : B.paired s s' shell shell')
    {c : Document.Common} {isRecord : Bool} {bases : List Base} {fields members : List Node}
    (typed : strict → (Node.composite c isRecord bases fields members).WellTyped) :
    B.Abreast s s' (Import.fill enter shell isRecord bases fields)
      (Import.fill enter shell' isRecord bases fields) Any := by
  have field {f : Node} (hf : f ∈ fields) : strict → f.WellTyped := fun h =>
    (typed h).part (Node.mem_parts_of_mem_fields hf)
  refine concord.fill (fun h f hf => (field hf h).typed.name) ?_ (fun f hf hint => ?_)
    (fun _ _ u hu => ?_) hshell
  · rintro rfl b hb
    exact concord.createType he (fun h => (typed h).part (Node.mem_parts_of_mem_bases hb))
      fun _ => .inl rfl
  · exact concord.createType he (field hf) (Named.text hint).isName
  · exact concord.createType he (fun h => (field hu h).part (List.mem_singleton_self u))
      fun _ => .inl rfl

/-- An entry takes what is made for it, or what stands in for that. -/
theorem takeEntry {type : ImportM TypeId} (h : B.Abreast s s' type type B.Types) (k : Nat)
    (report : Fault → String) :
    B.Abreast s s' (do
      let id ← onTypeFault type fun e => do
        Import.diagnose typesSource (report e)
        undefined1
      Import.setEntry k id
      return id) (do
      let id ← onTypeFault type fun e => do
        Import.diagnose typesSource (report e)
        undefined1
      Import.setEntry k id
      return id) B.Types :=
  Abreast.bind (.onTypeFault h fun _ t t' _ => concord.undefinedFor _ _ t t')
    fun _ _ _ _ _ hxy => (concord.setEntry hxy k).bind fun _ _ _ _ onward _ =>
      .pure (onward.paired hxy)

theorem resolveEntry (he : ∀ index, B.Makes (enter index)) {k : Nat} {node : Node}
    (typed : strict → node.WellTyped) (entry : s.document.types[k]? = some node)
    (unset : s.typeAt? k = none) :
    B.Abreast s s' (resolveEntry enter k node) (resolveEntry enter k node) B.Types := by
  have named : Named strict (entryName node k) :=
    .nameOr (fun h => (typed h).typed.name) (fun _ => .inl rfl) _
  cases node with
  | composite c isRecord bases fields members =>
      have filled (x y : TypeId) (t t' : Session) (hxy : B.paired t t' x y) :
          B.Abreast t t' (do
            Import.setEntry k x
            Import.fill enter x isRecord bases fields
            return x) (do
            Import.setEntry k y
            Import.fill enter y isRecord bases fields
            return y) B.Types :=
        (concord.setEntry hxy k).bind fun _ _ u u' onward _ =>
          (concord.fillNode he (onward.paired hxy) typed).bind fun _ _ _ _ onward' _ =>
            .pure (onward'.paired (onward.paired hxy))
      have registered : B.Abreast s s' _ _ B.Types :=
        concord.register entry rfl unset (concord.newShell named isRecord c.sizeBits)
      have resolved := registered.bind fun x y t t' _ => filled x y t t'
      simp only [bind_assoc] at resolved
      exact resolved
  | enumeration c constants =>
      exact concord.takeEntry (concord.register entry rfl unset (concord.newEnumeration named constants))
        k _
  | _ => exact concord.takeEntry (concord.createType he typed named.isName _ _) k _

theorem typeAtWithin (budget : Nat) (opened : List Nat) (index : Int) :
    B.Makes (typeAtWithin budget opened index) := by
  induction budget generalizing opened index with
  | zero =>
      rw [Import.typeAtWithin]
      refine concord.makes_inside 1 fun s s' => (concord.knownEntry opened index).bind
        fun known known' t t' _ hknown => ?_
      cases hknown.1 with
      | some hxy => exact .pure hxy
      | none => exact .throw _
  | succ budget ih =>
      rw [Import.typeAtWithin]
      refine concord.makes_inside 1 fun s s' => (concord.knownEntry opened index).bind
        fun known known' t t' _ hknown => ?_
      cases hknown.1 with
      | some hxy => exact .pure hxy
      | none =>
          refine .get fun ht => ?_
          rw [concord.documentTypes ht]
          cases entry : t.document.types[index.toNat]? with
          | none => exact .throw _
          | some node =>
              exact concord.resolveEntry (ih _)
                (fun h => (concord.wellTyped ht h).types node (List.mem_of_getElem? entry)) entry
                (hknown.2 rfl)

theorem typeAt (index : Int) : B.Makes (typeAt index) := fun s s' => .get fun h => by
  rw [concord.documentTypes h]
  exact concord.typeAtWithin _ _ index s s'

theorem typeOf {node : Node} (typed : strict → node.WellTyped) {hint : Json}
    (hh : strict → hint.IsName) : B.Makes (typeOf node hint) :=
  concord.createType concord.typeAt typed hh

theorem variableTypeOf {node : Node} (typed : strict → node.WellTyped) :
    B.Makes (variableTypeOf (some node)) :=
  concord.variableType (concord.typeOf typed fun _ => .inl rfl)

end Concord

end StabsImport.Import

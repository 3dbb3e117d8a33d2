import StabsImport.Proofs.Sizes
import StabsImport.Proofs.Supply

/-!
# Types that resolution makes

Void and types of no size come up all over the resolution of types; each place that needs a size
replaces or refuses them in its own way. So what resolution hands on is there, and has a size where
one is needed (`sized_supply`).
-/

namespace StabsImport.Import

open Document (Node Base Variable TypeReference BuiltInClass)

variable {s t : Session} {α : Type}

/-! ## Single types -/

theorem newType_gives {t : TypeObject} (ht : s.program.arena.Fits t) :
    Gives s (edit (Program.newType t)) fun id a => a.get? id = some t :=
  .edit fun hp =>
    ⟨hp.withTypes (hp.types.push ht) (.push _ _) fun hr => (Arena.Keeps.push _ _).lt_size
      (hp.registered hr), Arena.get?_push_self _ _⟩

/-- What a new type is entered as is there. -/
theorem newNamed_gives (name : Json) {shape : Shape}
    (h : s.program.arena.Fits (.named name shape)) :
    Gives s (edit (Program.newType (.named name shape))) fun id a => id < a.size :=
  (newType_gives h).mono fun _ _ hid => Arena.lt_size_of_get? hid

theorem undefined1_gives : Gives s undefined1 fun id a => 0 < a.length id :=
  (newType_gives (t := .undefinedOf 1) trivial).mono fun id a hid => by
    rw [Arena.length_undefinedOf hid]
    exact Int.one_pos

theorem newUndefined_gives (size : Int) :
    Gives s (edit (Program.newUndefined size)) fun id a => id < a.size := by
  unfold Program.newUndefined
  split
  · exact Gives.throw _
  · exact newNamed_gives _ trivial

theorem sizedType_gives (id : TypeId) :
    Gives s (edit (Program.sizedType (some id))) fun id a => 0 < a.length id := by
  intro hs
  rw [Runs, edit_sizedType]
  by_cases h : s.program.arena.length id ≤ 0
  · rw [if_pos h]
    exact undefined1_gives hs
  · rw [if_neg h]
    exact ⟨.refl hs, Int.not_le.mp h⟩

theorem builtIn_gives (c : BuiltInClass) : Gives s (builtIn c) fun id a => id < a.size := by
  refine .after (.need 3) fun _ t _ => .get ?_
  split
  · next id hid => exact fun ht => ⟨.refl ht, ht.builtIns hid⟩
  · have fits : t.program.arena.Fits (builtInType c) := by cases c <;> trivial
    refine (newType_gives fits).bind fun id u _ hid => ?_
    have hlt := Arena.lt_size_of_get? hid
    refine Gives.bind (.record (P := (id < ·.size)) fun hu => ?_) fun _ _ _ h => .pure h
    exact ⟨{ hu with
      builtIns := Ledger.forall_get?_put (P := (· < u.program.arena.size)) hlt hu.builtIns },
      rfl, hlt⟩

theorem pointerTo_gives (target : TypeId) :
    Gives s (pointerTo target) fun id a => a.IsSolid id := by
  refine .after (.need 3) fun _ _ _ => .after .pointerSize fun size t _ => .get ?_
  split
  · next id hid => exact fun ht => ⟨.refl ht, ht.pointers hid⟩
  · have fits : t.program.arena.Fits (.pointer target size) := trivial
    refine (newType_gives fits).bind fun id u _ hid => ?_
    have solid : u.program.arena.IsSolid id := ⟨_, hid, rfl⟩
    refine Gives.bind (.record (P := (·.IsSolid id)) fun hu => ?_) fun _ _ _ h => .pure h
    exact ⟨{ hu with pointers := Ledger.forall_get?_put solid hu.pointers }, rfl, solid⟩

theorem newArray_gives {element : TypeId} (count : Int) :
    Gives s (edit (Program.newArray element count)) fun id a => id < a.size := by
  intro hs
  rw [runs_edit, Program.newArray, Runs.bind_iff]
  show Runs (if s.program.arena.length element ≤ 0 then _ else _ : Edit TypeId) s.program _ _
  split
  · rw [Runs.bind_iff, Program.typeName, Program.runs_view]
    split <;> exact .refl hs
  · next hlength =>
      split
      · exact .refl hs
      · have fits : s.program.arena.Fits (.array element count) := Int.not_le.mp hlength
        have made := newType_gives fits hs
        rw [runs_edit] at made
        exact made.mono (fun _ _ h => ⟨h.1, Arena.lt_size_of_get? h.2⟩) fun _ _ h => h

theorem arrayOf_gives (element : TypeId) (count : Int) :
    Gives s (arrayOf element count) fun id a => id < a.size := by
  refine .after (.need 3) fun _ _ _ => (sizedType_gives element).bind fun sized t _ _ => .get ?_
  split
  · next id hid => exact fun ht => ⟨.refl ht, ht.arrays hid⟩
  · refine (newArray_gives count).bind fun id u _ hlt => ?_
    refine Gives.bind (.record (P := (id < ·.size)) fun hu => ?_) fun _ _ _ h => .pure h
    exact ⟨{ hu with
      arrays := Ledger.forall_get?_put (P := (· < u.program.arena.size)) hlt hu.arrays },
      rfl, hlt⟩

theorem newSignature_gives (name : Json) (returns : TypeId) {parameters : List TypeId}
    (h : ∀ id ∈ parameters, 0 < s.program.arena.length id) :
    Gives s (newSignature name returns parameters) fun id a => id < a.size :=
  .after (.need 2) fun _ _ hk => newNamed_gives name fun id hid => hk.length_pos (h id hid)

theorem newEnumeration_gives (name : Json) (constants : List (Int × Json)) :
    Gives s (newEnumeration name constants) fun id a => id < a.size :=
  .after (.need 3) fun _ _ _ => .after (.addConstants _ _ _) fun _ _ _ =>
    newNamed_gives name trivial

theorem newShell_gives (isRecord : Bool) (sizeBits : Int) (name : Json) :
    Gives s (newShell isRecord sizeBits name) fun id a => id < a.size :=
  .after (.need 3) fun _ _ _ => newNamed_gives name nofun

/-! ## Members -/

/-- Nothing but a component of this type and length is put into a composite. -/
def Adds (type : TypeId) (length : Int) (f : Composite → Except Rejection Composite) : Prop :=
  ∀ c c', f c = .ok c' → ∀ m ∈ c'.components,
    m ∈ c.components ∨ m.type = type ∧ m.length = length ∧ 0 < length

theorem adds_placeMember (offset : Int) (type : TypeId) (length : Int) (name : Json) :
    Adds type length (·.placeMember offset type length name) := by
  intro c c' h m hm
  simp only [Composite.placeMember] at h
  split at h
  · cases h
  · split at h
    · cases h
    · next hlength =>
        cases h
        rcases mem_insertSorted hm with rfl | hm
        · exact .inr ⟨rfl, rfl, Int.not_le.mp hlength⟩
        · exact .inl (List.mem_filter.mp hm).1

theorem adds_placeBits (offset width bitOffset : Int) (type : TypeId) (bitSize : Int)
    (name : Json) : Adds type width (·.placeBits offset width bitOffset type bitSize name) := by
  intro c c' h m hm
  simp only [Composite.placeBits] at h
  split at h
  · cases h
  · next hwidth =>
      simp only [Bool.or_eq_true, decide_eq_true_eq] at hwidth
      cases h
      rcases mem_insertSorted hm with rfl | hm
      · exact .inr ⟨rfl, rfl, by omega⟩
      · exact .inl (List.mem_filter.mp hm).1

theorem adds_addAlternative (type : TypeId) (length : Int) (name : Json) :
    Adds type length (·.addAlternative type length name) := by
  intro c c' h m hm
  simp only [Composite.addAlternative] at h
  split at h
  · cases h
  · next hlength =>
      cases h
      rcases List.mem_append.mp hm with hm | hm
      · left
        split at hm
        · exact hm
        · exact (List.mem_filter.mp hm).1
      · rw [List.mem_singleton] at hm
        subst hm
        exact .inr ⟨rfl, rfl, Int.not_le.mp hlength⟩

theorem editComposite_gives (kind : CompositeKind) (shell : TypeId) {type : TypeId} {length : Int}
    {f : Composite → Except Rejection Composite} (adds : Adds type length f)
    (solid : 0 < length → s.program.arena.IsSolid type) :
    Gives s (edit (Program.editComposite kind shell f)) fun _ _ => True := by
  refine .edit fun hp => ?_
  rw [Program.editComposite, Runs.bind_iff, Runs.get_iff]
  split
  · next name c hc =>
      split
      · exact .refl hp
      · rw [Runs.bind_iff, Program.runs_ofExcept]
        cases hf : f c with
        | error cause => exact .refl hp
        | ok c' =>
            have lasts := TypeObject.Lasts.refilled name name c c'
            have fits : s.program.arena.Fits (.named name (.composite c')) := by
              intro m hm
              rcases adds c c' hf m hm with hm | ⟨rfl, rfl, hlength⟩
              · exact hp.types shell _ hc m hm
              · exact ⟨solid hlength, hlength⟩
            refine ⟨hp.withTypes (hp.types.set hc lasts fits) (.set hc lasts) ?_, trivial⟩
            exact fun hr => (Arena.Keeps.set hc lasts).lt_size (hp.registered hr)
  · exact .refl hp

theorem placeBase_gives (shell : TypeId) (index : Nat) (offset : Int) (type : TypeId) :
    Gives s (placeBase shell index offset type) fun _ _ => True :=
  editComposite_gives .record shell (adds_placeMember offset type _ _) Arena.isSolid_of_length_pos

theorem kindOf_staysSized (id : TypeId) : Preserves StaysSized (edit (Program.kindOf? id)) :=
  fun s => (Stepwise.refl s : StaysSized s s)

theorem typeLength_staysSized (id : TypeId) : Preserves StaysSized (typeLength id) :=
  fun s => (Stepwise.refl s : StaysSized s s)

theorem placeBitField_gives (shell : TypeId) (field : Node) (offsetBits : Int) (name : Json)
    (underlying : TypeId) :
    Gives s (placeBitField shell field offsetBits name underlying) fun _ _ => True := by
  refine (sizedType_gives underlying).bind fun sized t _ hsized => ?_
  refine .after (typeLength_staysSized sized) fun width u hu => ?_
  refine .after (kindOf_staysSized shell) fun kind v hv => ?_
  have solid : v.program.arena.IsSolid sized :=
    hv.isSolid (hu.isSolid (Arena.isSolid_of_length_pos hsized))
  split
  · exact editComposite_gives _ _ (adds_placeBits _ _ _ _ _ _) fun _ => solid
  · exact editComposite_gives _ _ (adds_addAlternative _ _ _) fun _ => solid

theorem placeSolid_gives (shell : TypeId) (field : Node) (name : Json) {type : TypeId}
    (h : s.program.arena.IsSolid type) :
    Gives s (placeSolid shell field name type) fun _ _ => True := by
  have stop (t : Session) (e : Fault) : Gives t (throw e : ImportM PUnit) fun _ _ => False :=
    .throw e
  refine .get ?_
  dsimp only
  split
  · exact .after (.typeName type) fun _ t _ => (stop t _).bind fun _ _ _ h => h.elim
  · refine .after (kindOf_staysSized shell) fun kind t ht => ?_
    split
    · exact editComposite_gives _ _ (adds_placeMember _ _ _ _) fun _ => ht.isSolid h
    · exact editComposite_gives _ _ (adds_addAlternative _ _ _) fun _ => ht.isSolid h

theorem placeField_gives (shell : TypeId) (field : Node) (name : Json) {type : TypeId}
    (h : type < s.program.arena.size) :
    Gives s (placeField shell field name type) fun _ _ => True := by
  have solid : Gives s (do if ← isVoid type then undefined1 else pure type)
      fun id a => a.IsSolid id := by
    have get : s.program.arena.get? type = some s.program.arena.objects[type] :=
      Array.getElem?_eq_getElem h
    refine .get ?_
    show Gives s (if _ then undefined1 else pure type) _
    split
    · exact undefined1_gives.mono fun _ _ => Arena.isSolid_of_length_pos
    · next hvoid =>
        refine .pure ⟨_, get, ?_⟩
        unfold TypeObject.isVoid
        split
        · next name hobject => exact (hvoid name (by rw [get, hobject])).elim
        · rfl
  rw [placeField_eq]
  exact solid.bind fun id t _ hid => placeSolid_gives shell field name hid

/-! ## Types of the table -/

/-- A type is registered, perhaps under another name, or one that is registered stands for it. -/
theorem addType_gives {id : TypeId} (h : id < s.program.arena.size) :
    Gives s (edit (Program.addType id)) fun id a => id < a.size := by
  refine .edit fun hp => ?_
  have same : s.program.Grown s.program := .refl hp
  rw [Program.addType, Runs.bind_iff, Program.runs_view]
  split
  · rw [Runs.bind_iff, Program.runs_view]
    split
    · next place hplace =>
        split
        · obtain ⟨k, hk⟩ : ∃ k, _ := Program.place_isFor hplace
          exact ⟨same, hp.registered hk⟩
        · next free =>
            have enter {arena : Arena} (types : arena.WellSized)
                (keeps : s.program.arena.Keeps arena) :
                s.program.Grown { s.program with
                  arena, registry := s.program.registry.put free id } ∧ id < arena.size :=
              ⟨hp.withTypes types keeps (Ledger.forall_get?_put (P := (· < arena.size))
                (keeps.lt_size h) fun hr => keeps.lt_size (hp.registered hr)), keeps.lt_size h⟩
            dsimp only
            split
            · rw [Runs.bind_iff, Program.rename, Runs.bind_iff, Runs.get_iff]
              split
              · next name shape hnamed =>
                  have lasts := TypeObject.Lasts.renamed name free shape
                  have fits : s.program.arena.Fits (.named free shape) := by
                    have fits := hp.types id _ hnamed
                    cases shape <;> exact fits
                  exact enter (hp.types.set hnamed lasts fits) (.set hnamed lasts)
              · exact same
            · exact enter hp.types (.refl _)
    · exact same
  · exact same

/-! ## What resolution hands on -/

/-- The action makes types that are there. -/
def MakesTypes (m : ImportM TypeId) : Prop := ∀ s, Gives s m fun id a => id < a.size

theorem sized_supply : Supply Session.WellSized Grown False fun id a => 0 < a.length id where
  wellTyped _ h := h.elim
  nodes hs := hs.nodes
  entries hs := hs.entries
  later h := h.keeps.lt_size
  lt_size := Arena.lt_size_of_length_pos
  lasts h := h.keeps.length_pos
  record hs _ program builtIns pointers arrays nodes entries := by
    refine ⟨?_, by rw [program]; exact .refl _⟩
    constructor <;> rw [program]
    · exact hs.program
    · rw [builtIns]
      exact hs.builtIns
    · rw [pointers]
      exact hs.pointers
    · rw [arrays]
      exact hs.arrays
    · exact nodes
    · exact entries
  undefined1 := undefined1_gives
  newUndefined := newUndefined_gives
  sizedType _ := sizedType_gives _
  builtIn := builtIn_gives
  pointerTo _ := (pointerTo_gives _).mono fun _ _ => Arena.IsSolid.lt_size
  arrayOf _ := arrayOf_gives _
  newSignature _ _ := newSignature_gives _ _
  newEnumeration _ := newEnumeration_gives _
  newShell _ isRecord sizeBits := newShell_gives isRecord sizeBits _
  placeBase _ shell index offset := placeBase_gives shell index offset _
  placeField h shell field name := placeField_gives shell field name h
  placeBitField _ shell field offsetBits name := placeBitField_gives shell field offsetBits name _
  addType := addType_gives

theorem typeOf_makesTypes (node : Node) (hint : Json) : MakesTypes (typeOf node hint) :=
  sized_supply.typeOf nofun nofun

/-- Whatever a variable is described by, its type has a size. -/
theorem variableTypeOf_gives (node : Option Node) :
    Gives s (variableTypeOf node) fun id a => 0 < a.length id :=
  sized_supply.variableTypeOf nofun

end StabsImport.Import

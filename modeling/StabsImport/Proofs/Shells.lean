import StabsImport.Proofs.Resolution

/-!
# Shells

The type stage registers every structure and union of the table before it places the members of
any. In between the types of some entries are shells: registered, unfinished, and untouched.
-/

namespace StabsImport.Import

open Document (Node Base)

variable {d : Document} {pointerSize : Int} {L L' : Scope} {w w' : Pending} {s s' t u : Session}
  {own : List Nat} {index : Nat}

def IsCompositeEntry (d : Document) (k : Nat) : Prop :=
  ∃ c isRecord bases fields members,
    d.types[k]? = some (.composite c isRecord bases fields members)

theorem IsCompositeEntry.isNominalEntry {k : Nat} (h : IsCompositeEntry d k) :
    IsNominalEntry d k := by
  obtain ⟨c, isRecord, bases, fields, members, hk⟩ := h
  exact ⟨_, hk, rfl⟩

/-- The structures and unions from an entry on, as far as they are registered. -/
def Session.shells (s : Session) (d : Document) (index : Nat) : Pending where
  entries k := index ≤ k ∧ IsCompositeEntry d k ∧ s.typeAt? k ≠ none
  types id := ∃ k, index ≤ k ∧ IsCompositeEntry d k ∧ s.typeAt? k = some id

/-- What is left to do is told by what it says of entries and types. -/
theorem Orderly.congr (h : Orderly d pointerSize L w s) (types : ∀ id, w'.types id ↔ w.types id)
    (entries : ∀ k, w'.entries k → w.entries k) (isOpen : ∀ k, L.isOpen k → L'.isOpen k) :
    Orderly d pointerSize L' w' s where
  regular := h.regular
  document := h.document
  pointers := h.pointers
  composites hw := h.composites ((types _).mp hw)
  pending hw := by
    obtain ⟨id, he, ht⟩ := h.pending (entries _ hw)
    exact ⟨id, he, (types id).mpr ht⟩
  registered := h.registered
  made hk he := by
    have within : (s.settled w).Within (s.settled w') :=
      ⟨fun hg => ⟨hg.1, fun hw => hg.2 ((types _).mp hw)⟩, fun he => he⟩
    exact (h.made hk he).mono within (fun hg => hg) (types _).mpr (entries _)
  uncached hk hu :=
    h.uncached hk (hu.imp (fun hu => ⟨hu.1, fun ho => hu.2 (isOpen _ ho)⟩) (entries _))

/-! ## Registering -/

/-- The entries before one are registered if they are to be, and no other has a type. -/
structure Listing (d : Document) (pointerSize : Int) (L : Scope) (index : Nat) (s : Session) :
    Prop where
  orderly : Orderly d pointerSize L (s.shells d 0) s
  unset : ∀ k, index ≤ k → s.typeAt? k = none

namespace Listing

theorem gains (h : Listing d pointerSize L index s) (hg : Gains s t) :
    Listing d pointerSize L index t where
  orderly := by
    refine (h.orderly.gains hg).congr (fun id => ?_) (fun k hw => ?_) fun _ h => h
    · simp only [Session.shells, hg.entry]
    · simpa only [Session.shells, hg.entry] using hw
  unset k hk := (hg.entry k).trans (h.unset k hk)

theorem skip (h : Listing d pointerSize L index s) : Listing d pointerSize L (index + 1) s where
  orderly := h.orderly
  unset k hk := h.unset k (by omega)

/-- A structure, union or enumeration takes the type that was registered for it. -/
theorem enlist (h : Listing d pointerSize L index s) {node : Node} {name : String} {shape : Shape}
    (hk : d.types[index]? = some node) (nominal : node.isNominal = true)
    (hname : entryName node index = .text name) (hfree : ¬ L.isOpen index)
    (hin : index < s.table.size)
    (composite : IsCompositeEntry d index → ∃ c, shape = .composite c)
    (made : ∀ {w : Pending} {t : Session}, (IsCompositeEntry d index → w.types s.program.arena.size) →
      t.program.arena.get? s.program.arena.size = some (.named (entryName node index) shape) →
      Made d pointerSize w t index node s.program.arena.size) :
    Listing d pointerSize L (index + 1) (s.enlist index name shape) where
  orderly := by
    have unset := h.unset index (Nat.le_refl _)
    have hset := typeAt?_enlist name shape hin
    have types (hc : IsCompositeEntry d index) :
        ((s.enlist index name shape).shells d 0).types s.program.arena.size :=
      ⟨index, Nat.zero_le _, hc, hset⟩
    have other {k : Nat} (hk : k ≠ index) :
        (s.enlist index name shape).typeAt? k = s.typeAt? k :=
      typeAt?_enlist_of_ne name shape hk
    refine h.orderly.enlist hk nominal hname unset hfree hin ?_ ?_ ?_ (made types)
    · rintro id ⟨k, h0, hc, he⟩
      exact ⟨k, h0, hc, typeAt?_enlist_of_typeAt? name shape unset he⟩
    · rintro id ⟨k, h0, hc, he⟩
      by_cases hki : k = index
      · subst hki
        rw [hset] at he
        cases he
        exact .inr ⟨rfl, composite hc⟩
      · rw [other hki] at he
        exact .inl ⟨k, h0, hc, he⟩
    · rintro k ⟨h0, hc, he⟩
      by_cases hki : k = index
      · subst hki
        exact .inr ⟨rfl, types hc⟩
      · rw [other hki] at he
        exact .inl ⟨h0, hc, he⟩
  unset k hk := by
    rw [typeAt?_enlist_of_ne name shape (by omega)]
    exact h.unset k (by omega)

end Listing

/-! ## Filling -/

/-- Every structure, union and enumeration has its type, and those from one entry on are shells. -/
structure Filling (d : Document) (pointerSize : Int) (L : Scope) (index : Nat) (s : Session) :
    Prop where
  orderly : Orderly d pointerSize L (s.shells d index) s
  set : ∀ k, IsNominalEntry d k → s.typeAt? k ≠ none

namespace Filling

theorem of_listing (h : Listing d pointerSize L index s)
    (set : ∀ k, IsNominalEntry d k → s.typeAt? k ≠ none) (isOpen : ∀ k, L.isOpen k → L'.isOpen k) :
    Filling d pointerSize L' 0 s where
  orderly := h.orderly.congr (fun _ => Iff.rfl) (fun _ h => h) isOpen
  set := set

theorem shells_succ (hc : ¬ IsCompositeEntry d index) (s : Session) :
    s.shells d (index + 1) = s.shells d index := by
  have h (k : Nat) : index + 1 ≤ k ∧ IsCompositeEntry d k ↔ index ≤ k ∧ IsCompositeEntry d k := by
    refine ⟨fun h => ⟨by omega, h.2⟩, fun h => ⟨Nat.lt_of_le_of_ne h.1 ?_, h.2⟩⟩
    rintro rfl
    exact hc h.2
  simp only [Session.shells, ← and_assoc, h]

theorem skip (h : Filling d pointerSize L index s) (hc : ¬ IsCompositeEntry d index) :
    Filling d pointerSize L (index + 1) s where
  orderly := by
    rw [shells_succ hc]
    exact h.orderly
  set := h.set

theorem gains (h : Filling d pointerSize L index s) (hg : Gains s t) :
    Filling d pointerSize L index t where
  orderly := by
    refine (h.orderly.gains hg).congr (fun id => ?_) (fun k hw => ?_) fun _ h => h
    · simp only [Session.shells, hg.entry]
    · simpa only [Session.shells, hg.entry] using hw
  set k hk := by
    rw [hg.entry]
    exact h.set k hk

/-- Once all entries were filled nothing is left to do. -/
theorem done (h : Filling d pointerSize L index s) (hle : d.types.length ≤ index) :
    Orderly d pointerSize L {} s := by
  have none {k : Nat} (hk : index ≤ k) : ¬ IsCompositeEntry d k := by
    rintro ⟨_, _, _, _, _, he⟩
    have hlt := (List.getElem?_eq_some_iff.mp he).1
    omega
  refine h.orderly.congr (fun id => ?_) nofun fun _ h => h
  refine ⟨nofun, ?_⟩
  rintro ⟨k, hk, hc, -⟩
  exact none hk hc

/-- A shell is finished once its members are placed. -/
theorem fill (h : Filling d pointerSize L index s) {c : Document.Common} {isRecord : Bool}
    {bases : List Base} {fields members : List Node} {shell : TypeId}
    (hk : d.types[index]? = some (.composite c isRecord bases fields members))
    (hshell : s.typeAt? index = some shell)
    (hown : (Node.composite c isRecord bases fields members).serials = c.serial :: own)
    (hfill : Fills d pointerSize L shell own (membersOf isRecord bases fields) s u)
    (ha : After L s u) (hl : NoLoop u) : Filling d pointerSize L (index + 1) u := by
  have hc : IsCompositeEntry d index := ⟨c, isRecord, bases, fields, members, hk⟩
  let w := s.shells d (index + 1)
  have apart {k : Nat} (hw : w.entries k) : k ≠ index := by
    rintro rfl
    exact absurd hw.1 (by omega)
  -- the shell is no longer untouched, while the others still are
  have hos : Orderly d pointerSize L (w.opening shell) s := by
    refine h.orderly.congr (fun id => ⟨?_, ?_⟩) ?_ fun _ h => h
    · rintro (rfl | ⟨k, hik, hc, he⟩)
      · exact ⟨index, Nat.le_refl _, hc, hshell⟩
      · exact ⟨k, by omega, hc, he⟩
    · rintro ⟨k, hik, hck, he⟩
      by_cases hki : k = index
      · subst hki
        rw [hshell] at he
        cases he
        exact .inl rfl
      · exact .inr ⟨k, by omega, hck, he⟩
    · rintro k ⟨hik, hck, he⟩
      exact ⟨by omega, hck, he⟩
  have hf : Fresh d L (w.opening shell) own s := by
    have hf : Fresh d L (w.opening shell)
        (Node.composite c isRecord bases fields members).serials s := by
      refine h.orderly.fresh hk (.inr ⟨Nat.le_refl _, hc, by rw [hshell]; nofun⟩) rfl fun hu => ?_
      rcases hu with ⟨hn, -⟩ | hw
      · rw [hshell] at hn
        cases hn
      · exact apart hw rfl
    rw [hown] at hf
    exact hf.tail
  have hgs : s.program.arena.get? shell = some
      (.named (entryName (.composite c isRecord bases fields members) index)
        (.composite (.empty (kindOf isRecord) (declaredBytes c.sizeBits)))) := by
    cases h.orderly.made hk hshell with
    | composite is _ _ untouched =>
        rw [untouched ⟨Nat.le_refl _, hc, by rw [hshell]; nofun⟩] at is
        exact is
    | plain hp => cases hp
    | missing hp => cases hp
  obtain ⟨hou, hku, made, hgu, hp⟩ := hfill hl _ _ _ hos hf (.inl rfl) hgs (by
    intro j m hj hn he
    obtain rfl := hos.eq_of_typeAt hj hk hn rfl he hshell
    refine ⟨fun hw => apart hw rfl, declaredBytes_nonneg _, ?_⟩
    exact hos.regular.fit c isRecord bases fields members (List.mem_of_getElem? hk))
  have hsu := hku.entry hshell
  have hplaces := hp.mono (settled_within_opening u w shell) fun _ _ _ _ hd =>
    hd.mono (settled_within_opening u w shell)
  have hdone : Orderly d pointerSize L w u := by
    refine hou.finish ?_ ?_
    · intro j hw he
      obtain ⟨c', isRecord', bases', fields', members', hj⟩ := hw.2.1
      exact apart hw (hou.eq_of_typeAt hj hk rfl rfl he hsu)
    · intro j c' isRecord' bases' fields' members' made' hj he hg
      obtain rfl := hou.eq_of_typeAt hj hk rfl rfl he hsu
      rw [hk] at hj
      cases hj
      rw [hgu] at hg
      cases hg
      exact hplaces
  -- all had their types before, so the same are left
  have same {k : Nat} (hck : IsCompositeEntry d k) : u.typeAt? k = s.typeAt? k := by
    cases he : s.typeAt? k with
    | none => exact absurd he (h.set k hck.isNominalEntry)
    | some id => exact hku.entry he
  refine ⟨hdone.congr (fun id => ⟨?_, ?_⟩) ?_ fun _ h => h, fun k hk hn => h.set k hk (ha.unset hn)⟩
  · rintro ⟨k, hik, hck, he⟩
    exact ⟨k, hik, hck, by rw [← same hck]; exact he⟩
  · rintro ⟨k, hik, hck, he⟩
    exact ⟨k, hik, hck, by rw [same hck]; exact he⟩
  · rintro k ⟨hik, hck, he⟩
    exact ⟨hik, hck, by rw [← same hck]; exact he⟩

end Filling

end StabsImport.Import

import Mathlib.Data.List.Pairwise
import StabsImport.Proofs.Sharing

/-!
# Function types that cannot be made

A function type that returns what cannot be made is not made either, and so no type is ever recorded
under its number. Where numbers tell the nodes of a document apart, whether a node has a type is
therefore told by the node alone, however often it is asked for.
-/

namespace StabsImport

open Document (Node Variable)

/-- What stands in two of the lists that no element is in twice stands in the same. -/
theorem eq_of_mem_of_nodup_flatMap {α β : Type} {f : α → List β} {l : List α}
    (h : (l.flatMap f).Nodup) {a b : α} (ha : a ∈ l) (hb : b ∈ l) {x : β} (hx : x ∈ f a)
    (hx' : x ∈ f b) : a = b := by
  have : Std.Symm (Function.onFun List.Disjoint f) := ⟨fun _ _ h _ ha hb => h hb ha⟩
  by_contra hne
  exact (List.nodup_flatMap.mp h).2.forall ha hb hne hx hx'

namespace Document

namespace Node

variable {m m' n : Node} {σ : Nat}

theorem serialsOfBases_eq (bs : List Base) :
    serialsOfBases bs = (bs.map (·.type)).flatMap serials := by
  induction bs with
  | nil => rfl
  | cons b bs ih => rw [serialsOfBases, ih, List.map_cons, List.flatMap_cons]

theorem serialsOfVariables_eq (vs : List Variable) :
    serialsOfVariables vs = (vs.map (·.type)).flatMap serials := by
  induction vs with
  | nil => rfl
  | cons v vs ih => rw [serialsOfVariables, ih, List.map_cons, List.flatMap_cons]

/-- The numbers of a node are its own, if it has one, and those of its parts. -/
theorem serials_eq (n : Node) : n.serials = n.number?.toList ++ n.parts.flatMap serials := by
  cases n with
  | array | bitField | pointer => simp [serials, number?, parts]
  | composite c isRecord bases fields members =>
      cases isRecord <;>
        simp [serials, number?, parts, Import.Regular.serialsOfNodes_eq, serialsOfBases_eq]
  | functionType f =>
      obtain ⟨c, returnType, parameters, _, _, _⟩ := f
      cases returnType <;> cases parameters <;>
        simp [serials, number?, parts, serialsOfOption, serialsOfParameters, serialsOfVariables_eq]
  | _ => rfl

/-- Where no number is given twice, the nodes of one number are one. -/
theorem eq_of_number_eq (h : n.serials.Nodup) (hm : Within m n) (hm' : Within m' n)
    (number : m.number? = some σ) (number' : m'.number? = some σ) : m = m' := by
  induction hm with
  | self =>
      cases hm' with
      | self => rfl
      | part hk hm' =>
          rw [serials_eq, number] at h
          refine absurd ?_ (List.nodup_cons.mp h).1
          exact List.mem_flatMap.mpr ⟨_, hk, mem_serials_of_within hm' number'⟩
  | @part k n hk hm ih =>
      have hσ := mem_serials_of_within hm number
      rw [serials_eq] at h
      cases hm' with
      | self =>
          rw [number'] at h
          exact absurd (List.mem_flatMap.mpr ⟨_, hk, hσ⟩) (List.nodup_cons.mp h).1
      | @part k' _ hk' hm' =>
          have hσ' := mem_serials_of_within hm' number'
          have hparts := (List.nodup_append.mp h).2.1
          obtain rfl := eq_of_mem_of_nodup_flatMap hparts hk hk' hσ hσ'
          exact ih ((List.nodup_flatMap.mp hparts).1 k hk) hm'

theorem isBuildable_functionType (f : FunctionType) (pointerSize : Int) :
    (functionType f).isBuildable pointerSize = f.returnType.all (·.isBuildable pointerSize) := by
  obtain ⟨c, returnType, parameters, _, _, _⟩ := f
  cases returnType <;> rfl

end Node

/-- The node stands somewhere in the document. -/
def Holds (d : StabsImport.Document) (m : Node) : Prop := ∃ n ∈ Import.typeNodes d, Node.Within m n

theorem Holds.part {d : StabsImport.Document} {m n : Node} (h : d.Holds n) (hm : m ∈ n.parts) :
    d.Holds m :=
  have ⟨r, hr, hn⟩ := h
  ⟨r, hr, .trans (.part hm .self) hn⟩

theorem Holds.within {d : StabsImport.Document} {m n : Node} (h : d.Holds n)
    (hm : Node.Within m n) : d.Holds m :=
  have ⟨r, hr, hn⟩ := h
  ⟨r, hr, hm.trans hn⟩

theorem holds_of_mem_types {d : StabsImport.Document} {n : Node} (h : n ∈ d.types) : d.Holds n :=
  ⟨n, List.mem_append_left _ h, .self⟩

/-- Numbers tell nodes apart. -/
def IsNumbered (d : StabsImport.Document) : Prop :=
  ∀ {m m' : Node} {σ : Nat}, d.Holds m → d.Holds m' → m.number? = some σ → m'.number? = some σ →
    m = m'

theorem isNumbered_of_nodup {d : StabsImport.Document}
    (h : (Node.serialsOfNodes (Import.typeNodes d)).Nodup) : d.IsNumbered := by
  intro m m' σ hm hm' number number'
  obtain ⟨n, hn, hm⟩ := hm
  obtain ⟨n', hn', hm'⟩ := hm'
  rw [Import.Regular.serialsOfNodes_eq] at h
  obtain rfl := eq_of_mem_of_nodup_flatMap h hn hn' (Node.mem_serials_of_within hm number)
    (Node.mem_serials_of_within hm' number')
  exact Node.eq_of_number_eq ((List.nodup_flatMap.mp h).1 n hn) hm hm' number number'

end Document

namespace Import

variable {d : Document} {pointerSize : Int} {s t : Session} {x : TypeId} {α : Type}

/-- The number of a node of the document that describes nothing that can be made. -/
def IsBarren (d : Document) (pointerSize : Int) (σ : Nat) : Prop :=
  ∃ n, d.Holds n ∧ n.number? = some σ ∧ n.isBuildable pointerSize = false

/-- No record was made of what cannot be made. -/
structure Session.Unspoilt (d : Document) (pointerSize : Int) (s : Session) : Prop where
  pointers : s.program.pointerSize = pointerSize
  counts : ∀ {element count id}, s.cache.arrays.get? (element, count) = some id → 0 ≤ count
  barren : ∀ {σ}, IsBarren d pointerSize σ → s.cache.nodes.get? σ = none

/-- What was spoilt before is spoilt after. -/
def Spoils (d : Document) (pointerSize : Int) (s t : Session) : Prop :=
  t.Unspoilt d pointerSize → s.Unspoilt d pointerSize

instance : Naming (Spoils d pointerSize) where
  refl _ h := h
  trans h h' hu := h (h' hu)
  report _ _ h := ⟨h.pointers, h.counts, h.barren⟩
  inside _ h hu :=
    have hs := h ⟨hu.pointers, hu.counts, hu.barren⟩
    ⟨hs.pointers, hs.counts, hs.barren⟩
  pushNamed _ _ _ h := ⟨h.pointers, h.counts, h.barren⟩

theorem pointerTo_spoils (target : TypeId) : Preserves (Spoils d pointerSize) (pointerTo target) := by
  refine (Preserves.need 3).bind fun _ => Preserves.pointerSize.bind fun size s => ?_
  rw [Runs.bind_iff, Runs.get_iff]
  split
  · exact (Stepwise.refl s : Spoils d pointerSize s s)
  · exact fun h => ⟨h.pointers, h.counts, h.barren⟩

/-- An array is made of no negative number of elements. -/
theorem arrayOf_spoils (element : TypeId) (count : Int) (s : Session) :
    Runs (arrayOf element count) s
      (fun _ t => Spoils d pointerSize s t ∧ (t.Unspoilt d pointerSize → 0 ≤ count))
      fun _ _ => True := by
  have sized : Preserves (Spoils d pointerSize) (do
      need 3
      edit (Program.sizedType (some element))) :=
    (Preserves.need 3).bind fun _ => .sizedType element
  rw [arrayOf, ← bind_assoc, Runs.bind_iff]
  refine Runs.mono (sized s) (fun sized t ht => ?_) fun _ _ _ => trivial
  rw [Runs.bind_iff, Runs.get_iff]
  split
  · next x hx => exact ⟨ht, fun h => h.counts hx⟩
  · next hunset =>
      rw [Runs.bind_iff, runs_edit, Program.newArray, Runs.bind_iff]
      show Runs (if t.program.arena.length sized ≤ 0 then _ else _ : Edit TypeId) t.program _ _
      split
      · rw [Runs.bind_iff, Program.typeName, Program.runs_view]
        split <;> trivial
      · split
        · trivial
        · next hcount =>
            refine ⟨fun h => ht ⟨h.pointers, fun hx => ?_, h.barren⟩, fun _ => Int.not_lt.mp hcount⟩
            exact h.counts (Ledger.get?_put_of_free hunset hx)

/-- Where a type was made of what describes none, there was a record of one already. -/
theorem createType_spoilt {n : Node} (h : n.isBuildable pointerSize = false) (held : d.Holds n)
    (enter : Int → ImportM TypeId) (hint : Json) (s : Session) :
    Runs (createType enter n hint) s (fun _ t => ¬ t.Unspoilt d pointerSize) fun _ _ => True := by
  have inside {calls : Nat} {m : ImportM TypeId} {s : Session} (hm : ∀ s,
      Runs m s (fun _ t => ¬ t.Unspoilt d pointerSize) fun _ _ => True) :
      Runs (inside calls m) s (fun _ t => ¬ t.Unspoilt d pointerSize) fun _ _ => True := by
    rw [runs_inside]
    split
    · refine Runs.mono (hm _) (fun _ t ht hu => ht ?_) fun _ _ _ => trivial
      exact ⟨hu.pointers, hu.counts, hu.barren⟩
    · trivial
  have onward {m : ImportM TypeId} {f : TypeId → ImportM TypeId} {s : Session}
      (hm : Runs m s (fun _ t => ¬ t.Unspoilt d pointerSize) fun _ _ => True)
      (hf : ∀ x t, Runs (f x) t (fun _ u => Spoils d pointerSize t u) fun _ _ => True) :
      Runs (m >>= f) s (fun _ t => ¬ t.Unspoilt d pointerSize) fun _ _ => True := by
    rw [Runs.bind_iff]
    refine Runs.mono hm (fun x t ht => ?_) fun _ _ _ => trivial
    exact Runs.mono (hf x t) (fun _ _ hu hspare => ht (hu hspare)) fun _ _ _ => trivial
  induction hh : n.height using Nat.strongRecOn generalizing n hint s with
  | ind height ih =>
  subst hh
  have part {m : Node} (hm : m ∈ n.parts) (h : m.isBuildable pointerSize = false) (hint : Json)
      (s : Session) : Runs (createType enter m hint) s (fun _ t => ¬ t.Unspoilt d pointerSize)
        fun _ _ => True :=
    ih m.height (Node.height_lt_of_mem_parts hm) h (held.part hm) hint s rfl
  cases n with
  | pointer c p target =>
      rw [createType]
      refine inside fun s => onward (part (List.mem_singleton_self target) h .null s) fun x t => ?_
      exact Runs.mono (pointerTo_spoils x t) (fun _ _ h => h) fun _ _ _ => trivial
  | array c element count =>
      rw [createType]
      refine inside fun s => ?_
      rw [Node.isBuildable, Bool.and_eq_false_iff] at h
      rcases h with h | hcount
      · refine onward (part (List.mem_singleton_self element) h .null s) fun x t => ?_
        exact Runs.mono (arrayOf_spoils x count t) (fun _ _ h => h.1) fun _ _ _ => trivial
      · rw [Runs.bind_iff]
        refine Runs.of_all (fun x t => ?_) fun _ _ => trivial
        refine Runs.mono (@arrayOf_spoils d pointerSize x count t) (fun _ _ h hu => ?_)
          fun _ _ _ => trivial
        exact of_decide_eq_false hcount (h.2 hu)
  | bitField c o u =>
      rw [createType]
      exact inside (part (List.mem_singleton_self u) h .null)
  | memberPointer c k m =>
      rw [createType]
      refine inside fun s => ?_
      rw [Runs.bind_iff, runs_need]
      split
      · rw [Runs.bind_iff, Import.pointerSize, Runs.bind_iff, Runs.get_iff]
        split
        · trivial
        · rw [Runs.pure_iff, runs_edit, Program.newUndefined]
          split
          · trivial
          · next hsize =>
              intro hu
              have hpos : s.program.pointerSize = pointerSize := hu.pointers
              rw [Node.isBuildable, decide_eq_false_iff_not] at h
              omega
      · trivial
  | functionType f =>
      have records := createType_functionType_records enter f hint s
      refine Runs.mono records (fun x t hx hu => ?_) fun _ _ _ => trivial
      rw [hu.barren ⟨_, held, rfl, h⟩] at hx
      cases hx
  | variable_ | functionDefinition | sourceFile =>
      rw [createType]
      trivial
  | _ => cases h

/-- What was not spoilt stays so. -/
def StaysUnspoilt (d : Document) (pointerSize : Int) (s t : Session) : Prop :=
  s.Unspoilt d pointerSize → t.Unspoilt d pointerSize

instance : Accrues (StaysUnspoilt d pointerSize) fun σ => ¬ IsBarren d pointerSize σ where
  trans h h' hs := h' (h hs)
  aside program _ arrays nodes hs := by
    constructor
    · rw [program]
      exact hs.pointers
    · rw [arrays]
      exact hs.counts
    · rw [nodes]
      exact hs.barren
  program hp hs := ⟨hp.pointerSize.trans hs.pointers, hs.counts, hs.barren⟩
  pointer _ hs := ⟨hs.pointers, hs.counts, hs.barren⟩
  array {s element count} hcount _ hs := by
    refine ⟨hs.pointers, fun {element' count' id} hx => ?_, hs.barren⟩
    rw [Ledger.get?_put] at hx
    split at hx
    · next hsame =>
        obtain ⟨-, rfl⟩ := Prod.mk.inj (of_decide_eq_true hsame)
        exact hcount
    · exact hs.counts hx
  node {s s' serial id object} h hmay _ _ _ hs := by
    refine ⟨(h hs).pointers, (h hs).counts, fun {τ} hτ => ?_⟩
    have hne : τ ≠ serial := fun he => hmay (he ▸ hτ)
    have hget : (s'.cache.nodes.put serial id).get? τ = s'.cache.nodes.get? τ :=
      Ledger.get?_put_of_not_same _ _ (decide_eq_false hne)
    exact hget.trans ((h hs).barren hτ)

/-- Where numbers tell nodes apart, what is barren is made of what cannot be made. -/
theorem admits_of_holds (numbered : d.IsNumbered) {n : Node}
    (held : d.Holds n) :
    Admits (StaysUnspoilt d pointerSize) (fun σ => ¬ IsBarren d pointerSize σ) n := by
  intro m hm σ hσ
  by_cases hb : IsBarren d pointerSize σ
  · obtain ⟨n', hn', number, hunmade⟩ := hb
    obtain rfl := numbered hn' (held.within hm) number hσ
    cases n' with
    | functionType f =>
        rw [Node.isBuildable_functionType] at hunmade
        cases hr : f.returnType with
        | none =>
            rw [hr] at hunmade
            cases hunmade
        | some r =>
            rw [hr] at hunmade
            have hpart : d.Holds r := hn'.part (List.mem_append_left _ (by simp [hr]))
            refine .inr ⟨r, hr, fun enter s => ?_⟩
            exact Runs.mono (createType_spoilt hunmade hpart enter .null s)
              (fun _ t ht u h => absurd h ht) fun _ _ _ => trivial
    | enumeration | composite => cases hunmade
    | _ => cases hσ
  · exact .inl hb

section

variable (numbered : d.IsNumbered)

include numbered

theorem typeOf_staysUnspoilt {n : Node} (held : d.Holds n) (hint : Json) :
    Preserves (Over d (StaysUnspoilt d pointerSize)) (typeOf n hint) :=
  typeOf_accrues (fun _ hn => admits_of_holds numbered (Document.holds_of_mem_types hn))
    (admits_of_holds numbered held) hint

theorem variableTypeOf_staysUnspoilt {n : Node} (held : d.Holds n) :
    Preserves (Over d (StaysUnspoilt d pointerSize)) (variableTypeOf (some n)) :=
  variableType_accrues (typeOf_staysUnspoilt numbered held .null)

theorem importTypes_staysUnspoilt :
    Preserves (Over d (StaysUnspoilt d pointerSize)) importTypes :=
  importTypes_accrues fun _ hn => admits_of_holds numbered (Document.holds_of_mem_types hn)

end

theorem Session.IsNew.unspoilt (h : s.IsNew) (d : Document) :
    s.Unspoilt d s.program.pointerSize where
  pointers := rfl
  counts hx := by
    rw [h.cache] at hx
    cases hx
  barren _ := by rw [h.cache]; rfl

end Import

end StabsImport

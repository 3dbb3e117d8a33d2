import StabsImport.Proofs.Asking
import StabsImport.Proofs.Making

/-!
# Rounds over the definitions

The definitions of a document are taken up one after another. Where no two start at one address, each
finds the function there as the round began, and leaves it for good. What a second round tells looks
as what the first one told. Main statements: `importFunctionsFrom_works`, `Round.again`.
-/

namespace StabsImport

open Document (FunctionDefinition SourceFile Node)

namespace Import

open Program

variable {d : Document} {pointerSize : Int} {b s t u v : Session} {blocks : List (Int × Int)}
  {x : FunctionDefinition × SourceFile} {l : List (FunctionDefinition × SourceFile)}
  {entry : Int} {f : Function}

/-! ## Where a definition starts -/

theorem StartsAt.unique {y : FunctionDefinition} {entry' : Int} (h : StartsAt y entry)
    (h' : StartsAt y entry') : entry = entry' := by
  obtain ⟨low, last, hbody, hlow⟩ := h
  obtain ⟨low', last', hbody', hlow'⟩ := h'
  rw [hbody] at hbody'
  cases hbody'
  exact Option.some.inj (hlow.symm.trans hlow')

theorem StartsAt.complete {y : FunctionDefinition} (h : StartsAt y entry) :
    isComplete y = true := by
  obtain ⟨low, last, hbody, -⟩ := h
  rw [bodyOf] at hbody
  split at hbody
  · next low' high' hlow hhigh =>
      rw [isComplete, Bool.and_eq_true, decide_eq_true_eq, decide_eq_true_eq]
      constructor
      · intro hnull
        rw [hnull] at hlow
        cases hlow
      · intro hnull
        rw [hnull] at hhigh
        cases hhigh
  · cases hbody

theorem Blocked.free {y : FunctionDefinition} {p : Program} (h : Blocked y p)
    (starts : StartsAt y entry) : p.function? entry = none := by
  obtain ⟨low, high, hbody, free, -⟩ := h
  rw [(startsAt_iff hbody).mp starts]
  exact free

theorem Idle.free {y : FunctionDefinition} {p : Program} (h : Idle y p)
    (starts : StartsAt y entry) : p.function? entry = none := by
  rcases h with incomplete | blocked
  · rw [starts.complete] at incomplete
    cases incomplete
  · exact blocked.free starts

/-- No two definitions start at one address. -/
def Apart (x y : FunctionDefinition × SourceFile) : Prop :=
  ∀ entry, StartsAt x.1 entry → ¬ StartsAt y.1 entry

theorem Idle.mono {y : FunctionDefinition} {p q : Program} (h : Idle y p)
    (functions : ∀ entry, StartsAt y entry → q.function? entry = p.function? entry)
    (sites : p.sites ⊆ q.sites) : Idle y q := by
  refine h.imp_right fun blocked => ?_
  obtain ⟨low, high, hbody, free, e, he, hmeets⟩ := blocked
  refine ⟨low, high, hbody, ?_, e, sites he, hmeets⟩
  rw [functions low ((startsAt_iff hbody).mpr rfl), free]

/-! ## One definition -/

namespace TakenUp

theorem before (h : TakenUp x s t) {s' : Session} (program : s.program = s'.program)
    (outputLines : s.outputLines = s'.outputLines) (markInlined : s.markInlined = s'.markInlined) :
    TakenUp x s' t := by
  cases h with
  | passed idle same => exact .passed (program ▸ idle) (program ▸ same)
  | told starts origin fits draws =>
      refine .told starts (program ▸ origin) fits ⟨?_, draws.stands⟩
      rw [← program, ← outputLines, ← markInlined]
      exact draws.redraws

theorem function?_of_not (h : TakenUp x s t) (other : ¬ StartsAt x.1 entry) :
    t.program.function? entry = s.program.function? entry := by
  cases h with
  | passed idle same => rw [same.function?]
  | told starts origin fits draws =>
      refine draws.redraws.function?_of_ne ?_
      rintro rfl
      exact other starts

theorem symbolsAt_of_not (h : TakenUp x s t) (other : ¬ StartsAt x.1 entry) :
    t.program.symbolsAt entry = s.program.symbolsAt entry := by
  cases h with
  | passed idle same => rw [same.symbolsAt]
  | told starts origin fits draws =>
      refine draws.redraws.symbolsAt_of_ne ?_
      rintro rfl
      exact other starts

theorem data (h : TakenUp x s t) : t.program.data = s.program.data := by
  cases h with
  | passed idle same => exact same.data
  | told starts origin fits draws => exact draws.redraws.data

/-- All functions keep their places. -/
theorem sites (h : TakenUp x s t) : s.program.sites ⊆ t.program.sites := by
  cases h with
  | passed idle same => rw [Program.sites, Program.sites, same.functions]; exact List.Subset.refl _
  | told starts origin fits draws =>
      rcases origin with ⟨hf, -⟩ | ⟨free, -⟩
      · rw [draws.redraws.sites hf rfl]
        exact List.Subset.refl _
      · rw [Program.sites, Program.sites, draws.redraws.functions, Ledger.entries_put_of_free free,
          List.map_append]
        exact List.subset_append_left _ _

end TakenUp

/-- What the definition tells stands in the program, by types of the session, or nothing is done for
it. -/
inductive InPlace (x : FunctionDefinition × SourceFile) (s : Session) (p : Program) : Prop where
  | passed (idle : Idle x.1 p)
  | told {entry : Int} {f : Function} {τ : Typing} (starts : StartsAt x.1 entry)
      (function : p.function? entry = some f) (fits : s.Fits x.1 τ)
      (account : τ.told s.program.convention s.lengthOf x.1 x.2 f = f)

namespace InPlace

variable {p q : Program}

theorem mono (h : InPlace x s p)
    (functions : ∀ entry, StartsAt x.1 entry → q.function? entry = p.function? entry)
    (sites : p.sites ⊆ q.sites) : InPlace x s q := by
  cases h with
  | passed idle => exact .passed (idle.mono functions sites)
  | told starts function fits account =>
      exact .told starts ((functions _ starts).trans function) fits account

theorem recalled (h : InPlace x s p) (recalls : Recalls s t) : InPlace x t p := by
  cases h with
  | passed idle => exact .passed idle
  | told starts function fits account =>
      refine .told starts function (recalls.fits fits) ?_
      rw [recalls.told fits, account]

theorem drafted (h : InPlace x s p) (starts : StartsAt x.1 entry)
    (hf : p.function? entry = some f) (pointers : s.program.pointerSize = pointerSize) :
    Drafted pointerSize x.1 f := by
  cases h with
  | passed idle =>
      rw [idle.free starts] at hf
      cases hf
  | told starts' function fits account =>
      obtain rfl := starts.unique starts'
      obtain rfl := Option.some.inj (function.symm.trans hf)
      rw [← account]
      refine drafted_told (fun hnone => ?_) (List.Forall₂.length_eq fits.parameters).symm
        (List.Forall₂.length_eq fits.locals).symm
      have returns := List.Forall₂.length_eq fits.returns
      rw [pointers, hnone] at returns
      exact Option.toList_eq_nil_iff.mp (List.length_eq_zero_iff.mp returns.symm)

end InPlace

theorem TakenUp.inPlace (h : TakenUp x s t) : InPlace x t t.program := by
  cases h with
  | passed idle same =>
      refine .passed (idle.mono (fun entry _ => congrFun same.function? entry) ?_)
      rw [Program.sites, Program.sites, same.functions]
      exact List.Subset.refl _
  | told starts origin fits draws =>
      exact .told starts draws.redraws.function? fits (Typing.told_told _ _ _)

/-- The labels that are left where the function of a definition stands are in nobody's way. -/
def Clear (x : FunctionDefinition × SourceFile) (p : Program) : Prop :=
  ∀ entry, StartsAt x.1 entry → p.function? entry ≠ none →
    ∀ n ∈ labelNames (p.symbolsAt entry), isKept x.1.common.name n = true

theorem TakenUp.clear (h : TakenUp x s t) : Clear x t.program := by
  intro entry hentry hf n hn
  cases h with
  | passed idle same => exact absurd (same.function? ▸ idle.free hentry) hf
  | told starts origin fits draws =>
      obtain rfl := hentry.unique starts
      rw [draws.redraws.symbolsAt, ← fst_listed, listed_curated] at hn
      obtain ⟨e, he, rfl⟩ := List.mem_map.mp hn
      exact (List.mem_filter.mp he).2

/-! ## Comments -/

/-- Whether the function of a definition is there. -/
def hasFunction (y : FunctionDefinition) (p : Program) : Bool :=
  match bodyOf y with
  | .ok (low, _) => (foundAt p low).isSome
  | .error _ => false

theorem hasFunction_iff {y : FunctionDefinition} {p : Program} :
    hasFunction y p = true ↔ ∃ entry, StartsAt y entry ∧ p.function? entry ≠ none := by
  have there (entry : Int) : p.functions.contains entry = true ↔ p.function? entry ≠ none := by
    rw [Ledger.contains, Option.isSome_iff_ne_none]
    exact Iff.rfl
  constructor
  · intro h
    unfold hasFunction at h
    split at h
    · next low last hbody =>
        obtain ⟨entry, hentry⟩ := Option.isSome_iff_exists.mp h
        obtain ⟨hlow, held⟩ := Option.filter_eq_some_iff.mp hentry
        exact ⟨entry, ⟨low, last, hbody, hlow⟩, (there entry).mp held⟩
    · cases h
  · rintro ⟨entry, ⟨low, last, hbody, hlow⟩, hf⟩
    rw [hasFunction, hbody]
    show (low.whole?.filter _).isSome = true
    rw [hlow, Option.filter_some, if_pos ((there entry).mpr hf)]
    rfl

theorem hasFunction_congr {y : FunctionDefinition} {p q : Program}
    (functions : ∀ entry, StartsAt y entry → (q.function? entry = none ↔ p.function? entry = none)) :
    hasFunction y q = hasFunction y p := by
  rw [Bool.eq_iff_iff, hasFunction_iff, hasFunction_iff]
  exact exists_congr fun entry => and_congr_right fun starts => not_congr (functions entry starts)

/-- The comments that are written where the function of a definition is there. -/
def written (outputLines markInlined : Bool) (p : Program) (x : FunctionDefinition × SourceFile) :
    List ((Int × CommentKind) × String) :=
  if hasFunction x.1 p then assignments outputLines markInlined x.1 x.2 else []

theorem TakenUp.comments (h : TakenUp x s t) : t.program.comments =
    s.program.comments.putAll (written s.outputLines s.markInlined t.program x) := by
  cases h with
  | passed idle same =>
      have absent : ¬ hasFunction x.1 t.program = true := by
        rw [hasFunction_iff]
        rintro ⟨entry, starts, hf⟩
        exact hf (same.function? ▸ idle.free starts)
      rw [written, if_neg absent, same.comments]
      rfl
  | told starts origin fits draws =>
      have there : hasFunction x.1 t.program = true :=
        hasFunction_iff.mpr ⟨_, starts, by simp [draws.redraws.function?]⟩
      rw [written, if_pos there]
      exact draws.redraws.comments

/-! ## Types -/

/-- What is asked for where the function of a definition is there. -/
def asked (p : Program) (x : FunctionDefinition × SourceFile) : List (ImportM TypeId) :=
  if hasFunction x.1 p then asksOf x.1 else []

theorem takeUpFunction_works (numbered : d.IsNumbered) (hs : s.Imported d pointerSize)
    (h : s.program.Consistent blocks) (hx : IsDefinition d x.1)
    (drafted : ∀ {entry f}, StartsAt x.1 entry → s.program.function? entry = some f →
      Drafted pointerSize x.1 f) :
    Works d pointerSize (takeUpFunction x) s
      (fun _ t => t.program.Consistent blocks ∧ TakenUp x s t ∧ Answered (asked t.program x) s t)
      AnyFault := by
  have works : Works d pointerSize (if isComplete x.1 then importFunction x.1 x.2 else pure false) s
      (fun _ t => t.program.Consistent blocks ∧ TakenUp x s t ∧ Answered (asked t.program x) s t)
      AnyFault := by
    split
    · next complete =>
        refine ((importFunction_works numbered hs h hx complete drafted).and
          (importFunction_consults hx.typed s)).mono (fun made t _ _ ht => ?_) fun _ _ _ _ h => h.1
        obtain ⟨⟨consistent, taken, there⟩, answered⟩ := ht
        rw [← hasFunction_iff, ← Bool.eq_iff_iff] at there
        exact ⟨consistent, taken, by rwa [asked, ← there]⟩
    · next incomplete =>
        have none : asked s.program x = [] := by
          refine if_neg fun there => incomplete ?_
          obtain ⟨entry, starts, -⟩ := hasFunction_iff.mp there
          exact starts.complete
        refine Works.pure hs ⟨h, .passed (.inl (by simpa using incomplete)) (.refl _), ?_⟩
        rw [none]
        exact .done (Stepwise.refl s)
  refine (takeUpFunction_of works fun stats ht hp => ⟨hp.1, hp.2.1.after ht.sound ?_ rfl, ?_⟩).mono
    (fun _ _ _ _ ⟨_, h⟩ => h) fun _ _ _ _ h => h
  · exact .aside _ _ _ stats
  · rw [← List.append_nil (asked _ x)]
    exact hp.2.2.append (.done (.aside _ _ _ stats))

/-- The types of functions and of data are there. -/
structure HoldsTypes (p : Program) : Prop where
  functions : ∀ f ∈ p.functions.values, ∀ id ∈ f.types, id < p.arena.size
  data : ∀ e ∈ p.data.entries, e.2.type < p.arena.size

theorem TakenUp.holdsTypes (h : TakenUp x s t) (up : Upholds s t) (hs : HoldsTypes s.program) :
    HoldsTypes t.program where
  functions := by
    have kept : ∀ f ∈ s.program.functions.values, ∀ id ∈ f.types, id < t.program.arena.size :=
      fun f hf id hid => Nat.lt_of_lt_of_le (hs.functions f hf id hid) up.size_le
    cases h with
    | passed idle same => rwa [same.functions]
    | @told entry f symbols τ starts origin fits draws =>
        have told : ∀ id ∈ τ.all, id < t.program.arena.size := by
          intro id hid
          rcases List.mem_append.mp hid with hid | hid
          · rcases List.mem_append.mp hid with hid | hid
            · exact fits.returns.lt_size hid
            · exact fits.parameters.lt_size hid
          · exact fits.locals.lt_size hid
        intro g hg id hid
        rw [draws.redraws.functions] at hg
        obtain ⟨e, he, rfl⟩ := List.mem_map.mp hg
        rcases Ledger.mem_put he with rfl | he | ⟨old, -, rfl⟩
        · exact told id (Typing.types_told hid)
        · exact kept e.2 (List.mem_map_of_mem he) id hid
        · exact told id (Typing.types_told hid)
  data e he := by
    rw [h.data] at he
    exact Nat.lt_of_lt_of_le (hs.data e he) up.size_le

/-! ## A round -/

/-- The definitions are taken up one after another, none of them being left out. -/
inductive Round (d : Document) (pointerSize : Int) (blocks : List (Int × Int)) :
    List (FunctionDefinition × SourceFile) → Session → Session → Prop where
  | done (s : Session) : Round d pointerSize blocks [] s s
  | next {x : FunctionDefinition × SourceFile} {rest : List (FunctionDefinition × SourceFile)}
      {s t u : Session} (taken : TakenUp x s t) (imported : t.Imported d pointerSize)
      (consistent : t.program.Consistent blocks) (upholds : Upholds s t)
      (later : Round d pointerSize blocks rest t u) : Round d pointerSize blocks (x :: rest) s u

theorem Works.isCancelled (hs : s.Imported d pointerSize) {bad : Fault → Session → Prop} :
    Works d pointerSize isCancelled s
      (fun b t => t = { s with monitor := t.monitor } ∧ (b = true → t.monitor.isCancelled = true))
      bad :=
  ⟨hs.aside s.journal s.monitor.check.2 s.stats, .aside s s.journal s.monitor.check.2 s.stats, rfl,
    fun h => (Monitor.check_isCancelled s.monitor).trans h⟩

namespace Round

theorem upholds (h : Round d pointerSize blocks l s t) : Upholds s t := by
  induction h with
  | done s => exact .refl s
  | next _ _ _ hup _ ih => exact hup.trans ih

theorem data (h : Round d pointerSize blocks l s t) : t.program.data = s.program.data := by
  induction h with
  | done s => rfl
  | next taken _ _ _ _ ih => exact ih.trans taken.data

theorem sites (h : Round d pointerSize blocks l s t) : s.program.sites ⊆ t.program.sites := by
  induction h with
  | done s => exact List.Subset.refl _
  | next taken _ _ _ _ ih => exact List.Subset.trans taken.sites ih

theorem function?_of_not (h : Round d pointerSize blocks l s t)
    (other : ∀ x ∈ l, ¬ StartsAt x.1 entry) :
    t.program.function? entry = s.program.function? entry := by
  induction h with
  | done s => rfl
  | next taken _ _ _ _ ih =>
      obtain ⟨first, rest⟩ := List.forall_mem_cons.mp other
      exact (ih rest).trans (taken.function?_of_not first)

theorem symbolsAt_of_not (h : Round d pointerSize blocks l s t)
    (other : ∀ x ∈ l, ¬ StartsAt x.1 entry) :
    t.program.symbolsAt entry = s.program.symbolsAt entry := by
  induction h with
  | done s => rfl
  | next taken _ _ _ _ ih =>
      obtain ⟨first, rest⟩ := List.forall_mem_cons.mp other
      exact (ih rest).trans (taken.symbolsAt_of_not first)

theorem holdsTypes (h : Round d pointerSize blocks l s t) (hs : HoldsTypes s.program) :
    HoldsTypes t.program := by
  induction h with
  | done s => exact hs
  | next taken _ _ hup _ ih => exact ih (taken.holdsTypes hup hs)

/-- Where a definition starts, what comes after it leaves the function alone. -/
theorem function?_later (h : Round d pointerSize blocks l s t) (apart : ∀ y ∈ l, Apart x y)
    (starts : StartsAt x.1 entry) : t.program.function? entry = s.program.function? entry :=
  h.function?_of_not fun y hy => apart y hy entry starts

end Round

/-- Unless the work is cancelled, a round is made, and types are asked for where functions are. -/
theorem importFunctionsFrom_works (numbered : d.IsNumbered) (hs : s.Imported d pointerSize)
    (h : s.program.Consistent blocks) (hx : ∀ x ∈ l, IsDefinition d x.1)
    (apart : l.Pairwise Apart)
    (drafted : ∀ x ∈ l, ∀ {entry f}, StartsAt x.1 entry → s.program.function? entry = some f →
      Drafted pointerSize x.1 f) :
    Works d pointerSize (importFunctionsFrom l) s
      (fun _ t => t.program.Consistent blocks ∧ (t.monitor.isCancelled = false →
        Round d pointerSize blocks l s t ∧ Answered (l.flatMap (asked t.program)) s t)) AnyFault := by
  induction l generalizing s with
  | nil => exact Works.pure hs ⟨h, fun _ => ⟨.done s, .done (Stepwise.refl s)⟩⟩
  | cons x rest ih =>
      obtain ⟨hapart, hrest⟩ := List.pairwise_cons.mp apart
      rw [importFunctionsFrom_step]
      refine Works.bind (Works.isCancelled hs) fun cancelled t ht hup hcancelled => ?_
      obtain ⟨hsame, hcancelled⟩ := hcancelled
      have program : t.program = s.program := by rw [hsame]
      have before {u : Session} (taken : TakenUp x t u) : TakenUp x s u :=
        taken.before program (by rw [hsame]) (by rw [hsame])
      have grounds : SameGrounds s t := hsame ▸ .aside s s.journal t.monitor s.stats
      cases cancelled with
      | true =>
          refine Works.pure ht ⟨program ▸ h, fun hgoes => ?_⟩
          rw [hcancelled rfl] at hgoes
          cases hgoes
      | false =>
          refine Works.bind (takeUpFunction_works numbered ht (program ▸ h)
            (hx x List.mem_cons_self) fun starts hf =>
              drafted x List.mem_cons_self starts (program ▸ hf)) fun _ u hu hup' htaken => ?_
          obtain ⟨hc, taken, answered⟩ := htaken
          refine (ih hu hc (fun y hy => hx y (List.mem_cons_of_mem _ hy)) hrest
            fun y hy {entry f} starts hf => ?_).mono (fun _ v _ _ hv => ?_) fun _ _ _ _ h => h
          · have other : ¬ StartsAt x.1 entry := fun hs => hapart y hy entry hs starts
            rw [(before taken).function?_of_not other] at hf
            exact drafted y (List.mem_cons_of_mem _ hy) starts hf
          · refine ⟨hv.1, fun hgoes => ?_⟩
            obtain ⟨later, answers⟩ := hv.2 hgoes
            refine ⟨.next (before taken) hu hc (hup.trans hup') later, ?_⟩
            have same : asked u.program x = asked v.program x := by
              have there : hasFunction x.1 v.program = hasFunction x.1 u.program :=
                hasFunction_congr fun entry starts => by rw [later.function?_later hapart starts]
              rw [asked, asked, there]
            rw [List.flatMap_cons, ← same]
            exact (answered.before grounds).append answers

namespace Round

theorem inPlace (h : Round d pointerSize blocks l s t) (apart : l.Pairwise Apart) :
    ∀ x ∈ l, InPlace x t t.program := by
  induction h with
  | done s => exact fun _ h => absurd h List.not_mem_nil
  | next taken imported _ _ later ih =>
      obtain ⟨first, rest⟩ := List.pairwise_cons.mp apart
      refine List.forall_mem_cons.mpr ⟨?_, ih rest⟩
      exact (taken.inPlace.mono (fun entry starts => later.function?_later first starts)
        later.sites).recalled (later.upholds.recalls imported.sound)

theorem clear (h : Round d pointerSize blocks l s t) (apart : l.Pairwise Apart) :
    ∀ x ∈ l, Clear x t.program := by
  induction h with
  | done s => exact fun _ h => absurd h List.not_mem_nil
  | next taken _ _ _ later ih =>
      obtain ⟨first, rest⟩ := List.pairwise_cons.mp apart
      refine List.forall_mem_cons.mpr ⟨fun entry starts hf => ?_, ih rest⟩
      rw [later.function?_later first starts] at hf
      rw [later.symbolsAt_of_not fun y hy => first y hy entry starts]
      exact taken.clear entry starts hf

theorem comments (h : Round d pointerSize blocks l s t) (apart : l.Pairwise Apart) :
    t.program.comments = s.program.comments.putAll
      (l.flatMap (written s.outputLines s.markInlined t.program)) := by
  induction h with
  | done s => rfl
  | @next x l s t u taken _ _ hup later ih =>
      obtain ⟨first, rest⟩ := List.pairwise_cons.mp apart
      have same : hasFunction x.1 u.program = hasFunction x.1 t.program :=
        hasFunction_congr fun entry starts => by rw [later.function?_later first starts]
      rw [ih rest, taken.comments, List.flatMap_cons, Ledger.putAll_append, hup.outputLines,
        hup.markInlined, written, written, same]

end Round

/-! ## A second round -/

namespace Session

/-- Of the types that look alike, one that stands for all. -/
noncomputable def alike (s : Session) (id : TypeId) : TypeId :=
  Classical.epsilon fun x => s.look x = s.look id

theorem look_alike (s : Session) (id : TypeId) : s.look (s.alike id) = s.look id :=
  Classical.epsilon_spec (p := fun x => s.look x = s.look id) ⟨id, rfl⟩

theorem map_alike {ids ids' : List TypeId} (h : ids'.map s.look = ids.map s.look) :
    ids'.map s.alike = ids.map s.alike := by
  have told (ids : List TypeId) : ids.map s.alike =
      (ids.map s.look).map fun l => Classical.epsilon fun x => s.look x = l := by
    rw [List.map_map]
    rfl
  rw [told, told, h]

end Session

/-- Types of the same definition make for the same account but for types that look alike. -/
theorem told_alike {τ τ' : Typing} (h : s.Fits x.1 τ) (h' : s.Fits x.1 τ') :
    (τ'.told s.program.convention s.lengthOf x.1 x.2 f).retyped s.alike =
      (τ.told s.program.convention s.lengthOf x.1 x.2 f).retyped s.alike := by
  have lengths (id : TypeId) : s.lengthOf (s.alike id) = s.lengthOf id :=
    congrArg Look.length (s.look_alike id)
  have returns : τ'.returns.map s.alike = τ.returns.map s.alike := by
    have both := Session.map_alike (h.returns.map_look h'.returns)
    revert both
    cases τ.returns <;> cases τ'.returns <;> simp
  have types : τ'.retyped s.alike = τ.retyped s.alike := by
    rw [Typing.retyped, Typing.retyped, returns,
      Session.map_alike (h.parameters.map_look h'.parameters),
      Session.map_alike (h.locals.map_look h'.locals)]
  rw [Typing.told_retyped fun id _ => lengths id, Typing.told_retyped fun id _ => lengths id, types]

/-- A table of functions with types that stand for all that look alike. -/
noncomputable def Session.functionsAlike (v : Session) (p : Program) : List (Int × Function) :=
  p.functions.entries.map fun e => (e.1, e.2.retyped v.alike)

/-- What was told where a definition starts, by types of a first session, is told again, or nothing is
done. -/
structure Retold (x : FunctionDefinition × SourceFile) (b : Session) (entry : Int) (f : Function)
    (s t : Session) : Prop where
  starts : StartsAt x.1 entry
  function : s.program.function? entry = some f
  before : ∃ τ, b.Fits x.1 τ ∧ τ.told b.program.convention b.lengthOf x.1 x.2 f = f
  after : ∃ τ, t.Fits x.1 τ ∧ Draws entry (τ.told t.program.convention t.lengthOf x.1 x.2 f)
    (curated entry x.1.common.name (s.program.symbolsAt entry))
    (assignments s.outputLines s.markInlined x.1 x.2) s t

theorem TakenUp.retold (h : TakenUp x s t) (inPlace : InPlace x b s.program) :
    SameTables s.program t.program ∨ ∃ entry f, Retold x b entry f s t := by
  cases h with
  | passed idle same => exact .inl same
  | @told entry f symbols τ starts origin fits draws =>
      cases inPlace with
      | passed idle =>
          exfalso
          rcases origin with ⟨hf, -⟩ | ⟨-, clear⟩
          · rw [idle.free starts] at hf
            cases hf
          · rcases idle with incomplete | blocked
            · rw [starts.complete] at incomplete
              cases incomplete
            · exact clear blocked
      | @told entry' f' τ' starts' function fits' account =>
          obtain rfl := starts.unique starts'
          obtain ⟨hf, rfl⟩ := origin.resolve_right fun free => by
            rw [free.1] at function
            cases function
          obtain rfl := Option.some.inj (function.symm.trans hf)
          exact .inr ⟨entry, f', starts, function, ⟨τ', fits', account⟩, ⟨τ, fits, draws⟩⟩

namespace Retold

/-- The function looks as before. -/
theorem functionsAlike (h : Retold x b entry f s t) (before : Recalls b v) (after : Recalls t v) :
    v.functionsAlike t.program = v.functionsAlike s.program := by
  obtain ⟨-, function, ⟨τ', fits', account⟩, ⟨τ, fits, draws⟩⟩ := h
  rw [Session.functionsAlike, Session.functionsAlike, draws.redraws.functions]
  refine Ledger.map_put_of_held function fun k => congrArg (Prod.mk k) ?_
  conv_rhs => rw [← account]
  rw [← after.told fits, ← before.told fits']
  exact told_alike (before.fits fits') (after.fits fits)

/-- The symbols keep their address, and its spelling. -/
theorem keys (h : Retold x b entry f s t) (hc : s.program.Consistent blocks) :
    t.program.symbols.keys = s.program.symbols.keys := by
  obtain ⟨-, function, -, ⟨τ, -, draws⟩⟩ := h
  rw [draws.redraws.symbols]
  refine Ledger.keys_put_of_held ?_ _
  rw [(hc.stands function).held]
  exact Option.some_ne_none _

end Retold

namespace Round

/-- Where all is in place, a round changes no function but for types that look alike. -/
theorem again (h : Round d pointerSize blocks l s t) (hc : s.program.Consistent blocks)
    (apart : l.Pairwise Apart) (inPlace : ∀ x ∈ l, InPlace x b s.program) (before : Recalls b v)
    (hv : Upholds t v) :
    v.functionsAlike t.program = v.functionsAlike s.program ∧
      t.program.symbols.keys = s.program.symbols.keys := by
  induction h with
  | done s => exact ⟨rfl, rfl⟩
  | @next x l s t u taken imported consistent hup later ih =>
      obtain ⟨first, rest⟩ := List.pairwise_cons.mp apart
      obtain ⟨hx, hl⟩ := List.forall_mem_cons.mp inPlace
      have onward := ih consistent rest (fun y hy => (hl y hy).mono
        (fun entry starts => taken.function?_of_not fun hx => first y hy entry hx starts)
        taken.sites) hv
      have once : v.functionsAlike t.program = v.functionsAlike s.program ∧
          t.program.symbols.keys = s.program.symbols.keys := by
        rcases taken.retold hx with same | ⟨entry, f, retold⟩
        · rw [Session.functionsAlike, Session.functionsAlike, same.functions, same.symbols]
          exact ⟨rfl, rfl⟩
        · exact ⟨retold.functionsAlike before ((later.upholds.trans hv).recalls imported.sound),
            retold.keys hc⟩
      exact ⟨onward.1.trans once.1, onward.2.trans once.2⟩

/-- Where all is in place, a round makes no function. -/
theorem function?_none (h : Round d pointerSize blocks l s t) (apart : l.Pairwise Apart)
    (inPlace : ∀ x ∈ l, InPlace x b s.program) (entry : Int) :
    t.program.function? entry = none ↔ s.program.function? entry = none := by
  induction h with
  | done s => exact Iff.rfl
  | @next x l s t u taken imported _ hup later ih =>
      obtain ⟨first, rest⟩ := List.pairwise_cons.mp apart
      obtain ⟨hx, hl⟩ := List.forall_mem_cons.mp inPlace
      refine (ih rest fun y hy => (hl y hy).mono
        (fun entry starts => taken.function?_of_not fun hx => first y hy entry hx starts)
        taken.sites).trans ?_
      rcases taken.retold hx with same | ⟨entry', f, retold⟩
      · rw [same.function?]
      · obtain ⟨τ, -, draws⟩ := retold.after
        by_cases here : entry = entry'
        · rw [here, draws.redraws.function?, retold.function]
          exact iff_of_false (Option.some_ne_none _) (Option.some_ne_none _)
        · rw [draws.redraws.function?_of_ne here]

/-- The symbols at an address are as before, or those of a function that is named once more. -/
theorem renamed (h : Round d pointerSize blocks l s t) (apart : l.Pairwise Apart)
    (inPlace : ∀ x ∈ l, InPlace x b s.program) (entry : Int) :
    t.program.symbolsAt entry = s.program.symbolsAt entry ∨ ∃ x ∈ l, StartsAt x.1 entry ∧
      s.program.function? entry ≠ none ∧ t.program.symbolsAt entry =
        curated entry x.1.common.name (s.program.symbolsAt entry) := by
  induction h with
  | done s => exact .inl rfl
  | @next x l s t u taken imported _ hup later ih =>
      obtain ⟨first, rest⟩ := List.pairwise_cons.mp apart
      obtain ⟨hx, hl⟩ := List.forall_mem_cons.mp inPlace
      by_cases starts : StartsAt x.1 entry
      · rw [later.symbolsAt_of_not fun y hy => first y hy entry starts]
        rcases taken.retold hx with same | ⟨entry', f, retold⟩
        · exact .inl (congrFun same.symbolsAt entry)
        · obtain rfl := starts.unique retold.starts
          obtain ⟨τ, -, draws⟩ := retold.after
          refine .inr ⟨x, List.mem_cons_self, starts, ?_, draws.redraws.symbolsAt⟩
          rw [retold.function]
          exact Option.some_ne_none f
      · have onward := ih rest fun y hy => (hl y hy).mono
          (fun entry starts => taken.function?_of_not fun hx => first y hy entry hx starts)
          taken.sites
        rw [taken.symbolsAt_of_not starts, taken.function?_of_not starts] at onward
        refine onward.imp_right fun ⟨y, hy, rest⟩ => ⟨y, List.mem_cons_of_mem _ hy, rest⟩

end Round

end Import

end StabsImport

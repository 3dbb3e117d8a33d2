import StabsImport.Proofs.Accounts
import StabsImport.Proofs.Lockstep
import StabsImport.Proofs.Settling
import StabsImport.Proofs.Stagewise

/-!
# Definitions taken up once types are settled

A definition resolves the types of its parts and tells its function. Where the types of the document
were imported, these types look the same whenever the definition is taken up, and so does what it
tells. Main statements: `describe_works`, `importFunction_finds`, `importFunction_makes`.
-/

namespace StabsImport

open Document (FunctionDefinition SourceFile Variable Node)

namespace Program

variable {p q r : Program}

/-- The programs have the same functions, symbols, comments and data. -/
structure SameTables (p q : Program) : Prop where
  functions : q.functions = p.functions
  symbols : q.symbols = p.symbols
  comments : q.comments = p.comments
  data : q.data = p.data

namespace SameTables

theorem refl (p : Program) : SameTables p p := ⟨rfl, rfl, rfl, rfl⟩

theorem trans (h : SameTables p q) (h' : SameTables q r) : SameTables p r :=
  ⟨h'.functions.trans h.functions, h'.symbols.trans h.symbols, h'.comments.trans h.comments,
    h'.data.trans h.data⟩

instance : Untyped SameTables := ⟨refl, trans, fun _ _ _ => ⟨rfl, rfl, rfl, rfl⟩⟩

theorem function? (h : SameTables p q) : q.function? = p.function? := by
  funext entry
  rw [Program.function?, Program.function?, h.functions]

theorem symbolsAt (h : SameTables p q) : q.symbolsAt = p.symbolsAt := by
  funext address
  rw [Program.symbolsAt, Program.symbolsAt, h.symbols]

variable {entry : Int} {f : Function} {symbols : List Symbol}
  {comments : List ((Int × CommentKind) × String)}

theorem redraws (h : SameTables p q) (h' : Redraws entry f symbols comments q r) :
    Redraws entry f symbols comments p r :=
  ⟨h.functions ▸ h'.functions, h.symbols ▸ h'.symbols, h.comments ▸ h'.comments,
    h'.data.trans h.data⟩

theorem redrawn (h : Redraws entry f symbols comments p q) (h' : SameTables q r) :
    Redraws entry f symbols comments p r :=
  ⟨h'.functions.trans h.functions, h'.symbols.trans h.symbols, h'.comments.trans h.comments,
    h'.data.trans h.data⟩

theorem stands (h : SameTables p q) (hp : p.Stands entry f symbols) : q.Stands entry f symbols :=
  ⟨h.function? ▸ hp.function, h.symbols ▸ hp.held, hp.here, hp.fit⟩

end SameTables

end Program

namespace Import

open Program

variable {d : Document} {pointerSize : Int} {s t u : Session} {α : Type}

/-! ## What variables and parameters look like -/

namespace Session

/-- What the type of a variable looks like: it has a length. -/
def variableLook (s : Session) (n : Node) : Option Look :=
  if n.isBuildable s.program.pointerSize then (s.outlook n).map Look.sized else some (.undefined 1)

def parameterLook (s : Session) (v : Variable) : Option Look :=
  if v.storage.isByReference then (s.variableLook v.type).map (·.pointer s.program.pointerSize)
  else s.variableLook v.type

/-- The types of the parts are there and look as the parts do. -/
def Shows (s : Session) (look : α → Option Look) (parts : List α) (ids : List TypeId) : Prop :=
  List.Forall₂ (fun a id => id < s.program.arena.size ∧ look a = some (s.look id)) parts ids

namespace Shows

variable {look look' : α → Option Look} {parts : List α} {ids ids' : List TypeId}

theorem lt_size (h : s.Shows look parts ids) {id : TypeId} (hid : id ∈ ids) :
    id < s.program.arena.size := by
  induction h with
  | nil => cases hid
  | cons hpart _ ih =>
      rcases List.mem_cons.mp hid with rfl | hid
      · exact hpart.1
      · exact ih hid

theorem mono (h : s.Shows look parts ids) (hu : Recalls s t)
    (sub : ∀ a l, look a = some l → look' a = some l) : t.Shows look' parts ids := by
  refine List.Forall₂.imp (fun a id hid => ⟨Nat.lt_of_lt_of_le hid.1 hu.size_le, ?_⟩) h
  rw [hu.look hid.1]
  exact sub a _ hid.2

/-- Types of the same parts look the same. -/
theorem map_look (h : s.Shows look parts ids) (h' : s.Shows look parts ids') :
    ids'.map s.look = ids.map s.look := by
  induction h generalizing ids' with
  | nil =>
      cases h'
      rfl
  | cons hpart _ ih =>
      cases h' with
      | cons hpart' hrest' =>
          rw [List.map_cons, List.map_cons, ih hrest',
            Option.some.inj (hpart'.2.symm.trans hpart.2)]

end Shows

/-- These are types of the parts of a definition. -/
structure Fits (s : Session) (x : FunctionDefinition) (τ : Typing) : Prop where
  returns : s.Shows s.outlook (returned? s.program.pointerSize x).toList τ.returns.toList
  parameters : s.Shows s.parameterLook (x.type.parameters.getD []) τ.parameters
  locals : s.Shows (fun e => s.variableLook e.2.type) (stackLocals x).entries τ.locals

end Session

namespace Recalls

variable (h : Recalls s t)

include h

theorem variableLook {n : Node} {l : Look} (hl : s.variableLook n = some l) :
    t.variableLook n = some l := by
  rw [Session.variableLook] at hl ⊢
  rw [h.pointerSize]
  split at hl
  · next hb =>
      obtain ⟨l', hl', rfl⟩ := Option.map_eq_some_iff.mp hl
      rw [if_pos hb, h.outlook hl']
      rfl
  · next hb => rwa [if_neg hb]

theorem parameterLook {v : Variable} {l : Look} (hl : s.parameterLook v = some l) :
    t.parameterLook v = some l := by
  rw [Session.parameterLook] at hl ⊢
  split at hl
  · next hr =>
      obtain ⟨l', hl', rfl⟩ := Option.map_eq_some_iff.mp hl
      rw [if_pos hr, h.variableLook hl', h.pointerSize]
      rfl
  · next hr =>
      rw [if_neg hr]
      exact h.variableLook hl

theorem fits {x : FunctionDefinition} {τ : Typing} (hx : s.Fits x τ) : t.Fits x τ where
  returns := by
    rw [h.pointerSize]
    exact hx.returns.mono h fun _ _ => h.outlook
  parameters := hx.parameters.mono h fun _ _ => h.parameterLook
  locals := hx.locals.mono h fun _ _ => h.variableLook

end Recalls

namespace Upholds

theorem variableLook (h : Upholds s t) (hs : s.Sound) {n : Node} {l : Look}
    (hl : s.variableLook n = some l) : t.variableLook n = some l :=
  (h.recalls hs).variableLook hl

theorem parameterLook (h : Upholds s t) (hs : s.Sound) {v : Variable} {l : Look}
    (hl : s.parameterLook v = some l) : t.parameterLook v = some l :=
  (h.recalls hs).parameterLook hl

end Upholds

namespace Works

variable {bad : Fault → Session → Prop}

theorem report (hs : s.Imported d pointerSize) (source : String) (e : Fault) :
    Works d pointerSize (reportFault source e) s (fun _ t => t = { s with journal := t.journal })
      bad :=
  diagnose hs _ _

variable (numbered : d.IsNumbered)

include numbered

theorem typeOf (hs : s.Imported d pointerSize) {n : Node} (typed : n.WellTyped) (held : d.Holds n) :
    Works d pointerSize (typeOf n .null) s
      (fun id t => (id < t.program.arena.size ∧ t.outlook n = some (t.look id) ∧
        n.isBuildable pointerSize = true) ∧ SameTables s.program t.program)
      fun e t => (e.isTypeFault = true ∧ n.isBuildable pointerSize = false) ∧
        SameTables s.program t.program :=
  (typeOf_settles numbered hs typed held (.inl rfl)).and (untyped_staged.typed n .null s)

/-- The type of a variable looks as the variable does. -/
theorem variableTypeOf (hs : s.Imported d pointerSize) {n : Node} (typed : n.WellTyped)
    (held : d.Holds n) : Works d pointerSize (variableTypeOf (some n)) s
      (fun id t => (id < t.program.arena.size ∧ t.variableLook n = some (t.look id)) ∧
        SameTables s.program t.program) bad := by
  have looks : Works d pointerSize (Import.variableTypeOf (some n)) s
      (fun id t => id < t.program.arena.size ∧ t.variableLook n = some (t.look id)) bad := by
    refine Works.onTypeFault (N := fun e _ => e.isTypeFault = true ∧ n.isBuildable pointerSize = false)
      ?_ (fun e _ he hf => by rw [he.1] at hf; cases hf) fun e t ht _ he => ?_
    · refine Works.bind (typeOf_settles numbered hs typed held (.inl rfl)) fun own t ht _ hown => ?_
      refine (Works.sizedType ht hown.1).mono (fun id u hu hup hid => ⟨hid.1, ?_⟩) fun _ _ _ _ h => h
      rw [Session.variableLook, hu.unspoilt.pointers, if_pos hown.2.2, hup.outlook ht.sound hown.2.1,
        hid.2, hup.look hown.1]
      rfl
    · refine Works.bind (Works.diagnose ht _ _) fun _ u hu _ _ => ?_
      refine (Works.undefined1 hu).mono (fun id v hv _ hid => ⟨hid.1, ?_⟩) fun _ _ _ _ h => h
      rw [Session.variableLook, hv.unspoilt.pointers, he.2, hid.2]
      rfl
  exact (looks.and (untyped_staged.varied n s)).mono (fun _ _ _ _ h => h) fun _ _ _ _ h => h.1

theorem parameterType (hs : s.Imported d pointerSize) {v : Variable} (typed : v.type.WellTyped)
    (held : d.Holds v.type) : Works d pointerSize (parameterType v) s
      (fun id t => (id < t.program.arena.size ∧ t.parameterLook v = some (t.look id)) ∧
        SameTables s.program t.program) bad := by
  refine Works.bind (Works.inside hs 3 (variableTypeOf numbered hs typed held))
    fun own t ht _ hown => ?_
  by_cases hr : v.storage.isByReference = true
  · rw [if_pos hr]
    refine ((Works.pointerTo ht hown.1.1).and (untyped_staged.pointed own t)).mono
      (fun id u hu hup hid => ⟨⟨hid.1.1, ?_⟩, hown.2.trans hid.2⟩) fun _ _ _ _ h => h.1
    rw [Session.parameterLook, if_pos hr, hup.variableLook ht.sound hown.1.2, hid.1.2,
      hup.look hown.1.1]
    rfl
  · rw [if_neg hr]
    refine Works.pure ht ⟨⟨hown.1.1, ?_⟩, hown.2⟩
    rw [Session.parameterLook, if_neg hr]
    exact hown.1.2

/-- The types of the parameters, each with its name. -/
theorem parametersOf (hs : s.Imported d pointerSize) {vs : List Variable}
    (typed : ∀ v ∈ vs, v.common.name.IsName ∧ v.type.WellTyped ∧ d.Holds v.type) :
    Works d pointerSize (parametersOf vs) s
      (fun declared t => (∃ ids, t.Shows t.parameterLook vs ids ∧
        declared = (vs.map (·.common.name)).zip ids) ∧ SameTables s.program t.program) bad := by
  induction vs generalizing s with
  | nil => exact Works.pure hs ⟨⟨[], .nil, rfl⟩, .refl s.program⟩
  | cons v rest ih =>
      obtain ⟨hname, htype, held⟩ := typed v List.mem_cons_self
      rw [parametersOf_cons]
      refine Works.bind (parameterType numbered hs htype held) fun id t ht _ hid => ?_
      rw [hname.isKey]
      refine Works.bind (ih ht fun w hw => typed w (List.mem_cons_of_mem _ hw))
        fun declared u hu hup hdeclared => ?_
      obtain ⟨⟨ids, hids, rfl⟩, same⟩ := hdeclared
      refine Works.pure hu ⟨⟨id :: ids, .cons ⟨?_, ?_⟩ hids, rfl⟩, hid.2.trans same⟩
      · exact Nat.lt_of_lt_of_le hid.1.1 hup.size_le
      · rw [hup.look hid.1.1]
        exact hup.parameterLook ht.sound hid.1.2

end Works

/-! ## The parts of a definition -/

section

variable {x : FunctionDefinition} {file : SourceFile} {entry : Int} {f g : Function}
  {symbols symbols' : List Symbol} {comments comments' : List ((Int × CommentKind) × String)}

/-- In the second session a function and the symbols beside it are these, and comments were written;
all else in the tables is as in the first. -/
structure Draws (entry : Int) (f : Function) (symbols : List Symbol)
    (comments : List ((Int × CommentKind) × String)) (s t : Session) : Prop where
  redraws : Redraws entry f symbols comments s.program t.program
  stands : t.program.Stands entry f symbols

namespace Draws

theorem refl (hp : s.program.Stands entry f symbols) : Draws entry f symbols [] s s :=
  ⟨hp.redraws, hp⟩

theorem trans (h : Draws entry f symbols comments s t) (h' : Draws entry g symbols' comments' t u) :
    Draws entry g symbols' (comments ++ comments') s u :=
  ⟨h.redraws.trans h'.redraws, h'.stands⟩

theorem after (same : SameTables s.program t.program) (h : Draws entry f symbols comments t u) :
    Draws entry f symbols comments s u :=
  ⟨same.redraws h.redraws, h.stands⟩

theorem before (h : Draws entry f symbols comments s t) (same : SameTables t.program u.program) :
    Draws entry f symbols comments s u :=
  ⟨same.redrawn h.redraws, same.stands h.stands⟩

/-- A function of the same name at the same place is drawn beside the same symbols. -/
theorem of_redraws (hp : s.program.Stands entry f symbols)
    (h : Redraws entry g symbols comments s.program t.program) (here : g.entry = f.entry)
    (name : g.name = f.name) : Draws entry g symbols comments s t :=
  ⟨h, hp.drawn h (here ▸ hp.here) (name ▸ hp.fit)⟩

end Draws

/-- The function gets its name in the place of the labels in its way. -/
theorem nameFunction_works (hs : s.Imported d pointerSize) (hp : s.program.Stands entry f symbols)
    (drafted : ∀ {e}, checkName x.common.name = .error e → f.name = defaultName entry) :
    Works d pointerSize (nameFunction entry x file) s
      (fun _ t => Draws entry { f with name := ownName entry x.common.name, comment := file.path }
        (curated entry x.common.name symbols) [] s t) AnyFault := by
  have keeps : KeepsTypes (do dropStale entry x.common.name ((← get).symbolsAt entry)) :=
    KeepsTypes.get.bind fun _ => keepsTypes_dropStale _ _ _
  -- the function under its own name, the labels in the way being gone
  have named : ∀ t, t.Imported d pointerSize →
      Draws entry { f with name := clearedName entry x.common.name f.name }
        (cleared entry x.common.name symbols) [] s t →
      Works d pointerSize
        (onRejection (edit (Program.renameFunction entry x.common.name .analysis))
          (reportFault functionsSource)) t
        (fun _ u => Draws entry { f with name := ownName entry x.common.name }
          (curated entry x.common.name symbols) [] s u) AnyFault := by
    intro t ht htold
    cases hname : checkName x.common.name with
    | ok given =>
        have rename := Works.edit ht (keepsTypes_renameFunction entry x.common.name .analysis)
          (htold.stands.rename hname)
        have drawn : Works d pointerSize (onRejection _ (reportFault functionsSource)) t _ AnyFault :=
          Works.onRejection rename (fun _ _ h => h.2.elim) fun _ _ _ _ h _ => h.2.elim
        refine drawn.mono (fun _ u _ _ hu => ?_) fun _ _ _ _ h => h
        obtain ⟨-, hredraws, hfit⟩ := hu
        rw [christened_cleared hname] at hredraws hfit
        rw [ownName, hname]
        exact htold.trans ⟨hredraws, htold.stands.drawn hredraws htold.stands.here hfit⟩
    | error e =>
        have rename := Works.edit ht (keepsTypes_renameFunction entry x.common.name .analysis)
          (renameFunction_unfit hname)
        refine Works.onRejection (rename.mono (fun _ _ _ _ h => h.2.elim) fun _ _ _ _ h => h)
          (fun _ _ _ _ => trivial) fun _ u hu _ he _ => ?_
        obtain ⟨-, -, same⟩ := he
        refine (Works.report hu _ _).mono (fun _ v _ _ hv => ?_) fun _ _ _ _ h => h
        have kept : SameTables t.program v.program := by
          rw [hv, same]
          exact .refl t.program
        have own : ownName entry x.common.name = clearedName entry x.common.name f.name := by
          rw [ownName, hname, clearedName, drafted hname, ite_self]
        have symbols_eq : curated entry x.common.name symbols = cleared entry x.common.name symbols := by
          rw [curated, hname]
        rw [own, symbols_eq]
        exact htold.before kept
  have clear := Works.edit hs keeps (hp.clear x.common.name)
  refine Works.bind (clear.mono (fun _ _ _ _ h => h) fun _ _ _ _ h => h.2.elim) fun _ t ht _ hclear => ?_
  obtain ⟨-, hredraws, hfit⟩ := hclear
  have htold : Draws entry _ _ [] s t := ⟨hredraws, hp.drawn hredraws hp.here hfit⟩
  refine Works.bind (named t ht htold) fun _ u hu _ hnamed => ?_
  have comment := Works.edit hu (keepsTypes_editFunction entry ({ · with comment := file.path }))
    (hnamed.stands.editFunction ({ · with comment := file.path }))
  refine comment.mono (fun _ v _ _ hv => ?_) fun _ _ _ _ _ => trivial
  exact hnamed.trans (.of_redraws hnamed.stands hv.2 rfl rfl)

theorem setReturnType_works (numbered : d.IsNumbered) (hs : s.Imported d pointerSize)
    (hp : s.program.Stands entry f symbols) (typed : Document.WellTypedFunction x)
    (held : ∀ n ∈ (Node.functionType x.type).parts, d.Holds n)
    (drafted : returned? pointerSize x = none → f.returnType = none) :
    Works d pointerSize (setReturnType entry x) s
      (fun _ t => ∃ r : Option TypeId, t.Shows t.outlook (returned? pointerSize x).toList r.toList ∧
        Draws entry { f with returnType := r } symbols [] s t) AnyFault := by
  have unchanged {t : Session} (hnone : returned? pointerSize x = none)
      (same : SameTables s.program t.program) :
      ∃ r : Option TypeId, t.Shows t.outlook (returned? pointerSize x).toList r.toList ∧
        Draws entry { f with returnType := r } symbols [] s t := by
    refine ⟨none, hnone ▸ .nil, ?_⟩
    have hf : { f with returnType := none } = f := by rw [← drafted hnone]
    rw [hf]
    exact (Draws.refl hp).before same
  unfold setReturnType
  cases hnode : x.type.returnType with
  | none => exact Works.pure hs (unchanged (by rw [returned?, hnode]; rfl) (.refl _))
  | some node =>
      have hpart : node ∈ (Node.functionType x.type).parts := by simp [Node.parts, hnode]
      have resolved := Works.typeOf numbered hs (typed.type.part hpart) (held node hpart)
      refine Works.onTypeFault (N := fun e t => (e.isTypeFault = true ∧
          node.isBuildable pointerSize = false) ∧ SameTables s.program t.program)
        (Works.bind (Works.inside hs 1 resolved) fun id t ht _ hid => ?_) (fun _ _ _ _ => trivial)
        fun e t ht _ he => ?_
      · have hstands := hid.2.stands hp
        refine (Works.edit ht (keepsTypes_setReturnType entry (some id))
          (hstands.editFunction ({ · with returnType := some id }))).mono
          (fun _ u _ hup hu => ?_) fun _ _ _ _ h => h.2.elim
        obtain ⟨⟨hlt, hlook, hb⟩, same⟩ := hid
        refine ⟨some id, ?_, (Draws.of_redraws hstands hu.2 rfl rfl).after same⟩
        have hreturned : returned? pointerSize x = some node := by
          rw [returned?, hnode, Option.filter_some, if_pos hb]
        rw [hreturned]
        refine .cons ⟨Nat.lt_of_lt_of_le hlt hup.size_le, ?_⟩ .nil
        rw [hup.look hlt]
        exact hup.outlook ht.sound hlook
      · refine (Works.report ht _ e).mono (fun _ u _ _ hu => ?_) fun _ _ _ _ h => h
        refine unchanged (by rw [returned?, hnode, Option.filter_some, he.1.2]; rfl) ?_
        refine he.2.trans ?_
        rw [hu]
        exact .refl t.program

theorem setParameters_works (numbered : d.IsNumbered) (hs : s.Imported d pointerSize)
    (hp : s.program.Stands entry f symbols)
    (typed : ∀ v ∈ x.type.parameters.getD [], v.common.name.IsName ∧ v.type.WellTyped ∧
      d.Holds v.type)
    (undeclared : x.type.parameters.getD [] = [] → f.parameters = [])
    (refused : ∀ {function e} {declared : List (Json × TypeId)},
      declared.map (·.1) = (x.type.parameters.getD []).map (·.common.name) →
        namedParameters function [] declared = .error e → f.parameters = []) :
    Works d pointerSize (setParameters entry x) s
      (fun _ t => ∃ (ids : List TypeId) (keep : LocalVariable → Bool),
        t.Shows t.parameterLook (x.type.parameters.getD []) ids ∧
        Draws entry
          { f with
            parameters := parametersTold t.program.convention t.program.arena.length f.name
              (((x.type.parameters.getD []).map (·.common.name)).zip ids)
            locals := f.locals.filter keep } symbols [] s t) AnyFault := by
  have unchanged {t : Session} {told : List Parameter} (none : f.parameters = []) (hnone : told = [])
      (same : SameTables s.program t.program) :
      Draws entry { f with parameters := told, locals := f.locals.filter fun _ => true } symbols [] s t := by
    have hf : { f with parameters := told, locals := f.locals.filter fun _ => true } = f := by
      rw [hnone, ← none, List.filter_true]
    rw [hf]
    exact (Draws.refl hp).before same
  unfold setParameters
  dsimp only
  split
  · next hempty =>
      have hempty := List.isEmpty_iff.mp hempty
      refine Works.pure hs ⟨[], fun _ => true, ?_, unchanged (undeclared hempty) ?_ (.refl _)⟩
      · rw [hempty]
        exact .nil
      cases hc : s.program.convention.assignStorage [] <;>
        simp [parametersTold, namedParameters, hc, placeParameters]
  · refine Works.bind (Works.parametersOf numbered hs typed) fun declared t ht _ hdeclared => ?_
    obtain ⟨⟨ids, hids, rfl⟩, same⟩ := hdeclared
    have hstands := same.stands hp
    have told {u : Session} (hup : Upholds t u) : parametersTold u.program.convention
        u.program.arena.length f.name (((x.type.parameters.getD []).map (·.common.name)).zip ids) =
          parametersTold t.program.convention t.program.arena.length f.name
            (((x.type.parameters.getD []).map (·.common.name)).zip ids) := by
      rw [hup.convention]
      refine parametersTold_congr fun q hq => congrArg Look.length (hup.look ?_)
      exact hids.lt_size (List.of_mem_zip (show (q.1, q.2) ∈ _ from hq)).2
    have shows {u : Session} (hup : Upholds t u) :
        u.Shows u.parameterLook (x.type.parameters.getD []) ids :=
      hids.mono (hup.recalls ht.sound) fun _ _ => hup.parameterLook ht.sound
    have replaced := Works.edit ht (keepsTypes_replaceParameters entry _)
      (hstands.replaceParameters (((x.type.parameters.getD []).map (·.common.name)).zip ids))
    refine Works.onRejection (Works.bind (replaced.mono (fun _ _ _ _ h => h) fun _ _ _ _ h => h)
      fun _ u hu hup hedit => ?_) (fun _ _ _ _ => trivial) fun e u hu hup he hrejected => ?_
    · obtain ⟨-, keep, hredraws⟩ := hedit
      refine (Works.count hu _).mono (fun _ v _ hup' hv => ?_) fun _ _ _ _ h => h
      have both := hup.trans hup'
      refine ⟨ids, keep, shows both, ?_⟩
      rw [told both]
      refine ((Draws.of_redraws hstands hredraws rfl rfl).after same).before ?_
      rw [hv]
      exact .refl u.program
    · obtain ⟨-, hprogram, hcause⟩ := he
      refine (Works.diagnose hu _ _).mono (fun _ v _ hup' hv => ?_) fun _ _ _ _ h => h
      have both := hup.trans hup'
      obtain ⟨e', hrefused⟩ := hcause.resolve_right fun hother => by
        rw [hrejected] at hother
        cases hother
      have names : (((x.type.parameters.getD []).map (·.common.name)).zip ids).map (·.1) =
          (x.type.parameters.getD []).map (·.common.name) := by
        refine List.map_fst_zip ?_
        rw [List.length_map, List.Forall₂.length_eq hids]
      refine ⟨ids, fun _ => true, shows both, unchanged (refused names hrefused) ?_ ?_⟩
      · rw [parametersTold, hrefused]
      · refine same.trans ?_
        rw [hv, hprogram]
        exact .refl t.program

/-! ## Comments -/

/-- The comments that a definition writes, in their order. -/
def assignments (outputLines markInlined : Bool) (x : FunctionDefinition) (file : SourceFile) :
    List ((Int × CommentKind) × String) :=
  (if outputLines then x.lineNumbers.map fun l => ((l.address, .eol), s!"Line {l.line}") else []) ++
    if markInlined then
      (inlineBoundaries (primaryPath x.relativePath file.relativePath) x.breadcrumbs).map
        fun b => ((b.address, .pre), b.comment)
    else []

theorem runs_setComments {β : Type} (l : List β) (address : β → Int) (kind : CommentKind)
    (text : β → String) (p : Program) :
    Runs (l.forM fun b => Program.setComment (address b) kind (some (text b))) p
      (fun _ q => q = { p with
        comments := p.comments.putAll (l.map fun b => ((address b, kind), text b)) })
      fun _ _ => False := by
  induction l generalizing p with
  | nil => rfl
  | cons b rest ih =>
      show Runs (Program.setComment (address b) kind (some (text b)) >>= fun _ => rest.forM _) p _ _
      rw [Runs.bind_iff]
      exact ih _

/-- Comments are written beside a function. -/
theorem comments_works {β : Type} (hs : s.Imported d pointerSize)
    (hp : s.program.Stands entry f symbols) (l : List β) (address : β → Int) (kind : CommentKind)
    (text : β → String) (counted : Stats → Stats) :
    Works d pointerSize (do
        edit (l.forM fun b => Program.setComment (address b) kind (some (text b)))
        count counted) s
      (fun _ t => Draws entry f symbols (l.map fun b => ((address b, kind), text b)) s t)
      AnyFault := by
  have written := Works.edit hs (keepsTypes_forM (fun _ => keepsTypes_setComment _ _ _) l)
    (runs_setComments l address kind text s.program)
  refine Works.bind (written.mono (fun _ _ _ _ h => h) fun _ _ _ _ h => h.2.elim) fun _ t ht _ h => ?_
  refine (Works.count ht counted).mono (fun _ u _ _ hu => ?_) fun _ _ _ _ h => h
  have redraws : Redraws entry f symbols (l.map fun b => ((address b, kind), text b)) s.program
      t.program := by
    rw [h.2]
    exact ⟨hp.redraws.functions, hp.redraws.symbols, rfl, rfl⟩
  refine (Draws.of_redraws hp redraws rfl rfl).before ?_
  rw [hu]
  exact .refl t.program

theorem annotate_works (hs : s.Imported d pointerSize) (hp : s.program.Stands entry f symbols) :
    Works d pointerSize (do
        annotateLines x
        annotateInlined x file) s
      (fun _ t => Draws entry f symbols (assignments s.outputLines s.markInlined x file) s t)
      AnyFault := by
  have lines : Works d pointerSize (annotateLines x) s
      (fun _ t => Draws entry f symbols (if s.outputLines then
        x.lineNumbers.map fun l => ((l.address, .eol), s!"Line {l.line}") else []) s t) AnyFault := by
    refine Works.get ?_
    split
    · exact comments_works hs hp x.lineNumbers (·.address) .eol (fun l => s!"Line {l.line}") _
    · exact Works.pure hs (.refl hp)
  refine Works.bind lines fun _ t ht hup hlines => Works.get ?_
  rw [hup.markInlined, assignments]
  split
  · exact (comments_works ht hlines.stands _ (fun b : Boundary => b.address) .pre (·.comment) _).mono
      (fun _ _ _ _ h => hlines.trans h) fun _ _ _ _ h => h
  · exact Works.pure ht (hlines.trans (.refl hlines.stands))

/-! ## Locals -/

/-- A local is added if its name is fit, and reported if it is not. -/
theorem addLocal_works (hs : s.Imported d pointerSize) (hp : s.program.Stands entry f symbols)
    {name : Json} {v : Variable} {id : TypeId}
    (free : ∀ given, inked? name = some given → (∀ q ∈ f.parameters, q.name ≠ given) ∧
      ∀ w ∈ f.locals, w.name = given → w.stackOffset = v.storage.stackOffset) :
    Works d pointerSize (onRejection
        (do
          edit (Program.addLocal entry name id v.storage.stackOffset)
          count fun t => { t with locals := t.locals + 1 })
        (reportFault functionsSource)) s
      (fun _ t => Draws entry
        { f with locals := (localsOf [(name, v)] [id]).foldl putLocal f.locals } symbols [] s t)
      AnyFault := by
  have edited := Works.edit hs (keepsTypes_addLocal entry name id v.storage.stackOffset)
    (hp.addLocal free)
  refine Works.onRejection (Works.bind edited fun _ t ht _ hedit => ?_) (fun _ _ _ _ => trivial)
    fun e t ht _ he _ => ?_
  · obtain ⟨-, given, hgiven, hredraws⟩ := hedit
    refine (Works.count ht _).mono (fun _ u _ _ hu => ?_) fun _ _ _ _ h => h
    have one : localsOf [(name, v)] [id] =
        [{ name := given, type := id, stackOffset := v.storage.stackOffset }] := by
      simp [localsOf, hgiven]
    rw [one]
    refine (Draws.of_redraws hp hredraws rfl rfl).before ?_
    rw [hu]
    exact .refl t.program
  · obtain ⟨-, hprogram, hnone⟩ := he
    refine (Works.report ht _ e).mono (fun _ u _ _ hu => ?_) fun _ _ _ _ h => h
    have none : localsOf [(name, v)] [id] = [] := by simp [localsOf, hnone]
    rw [none]
    refine (Draws.refl hp).before ?_
    rw [hu, ← hprogram]
    exact .refl t.program

/-- Locals are added one by one. None clashes with a parameter, with one that is there or with
another of them. -/
theorem addLocals_works (numbered : d.IsNumbered) (hs : s.Imported d pointerSize)
    (hp : s.program.Stands entry f symbols) {entries : List (Json × Variable)}
    (typed : ∀ e ∈ entries, e.2.type.WellTyped ∧ d.Holds e.2.type)
    (parameters : ∀ m ∈ sitesOf entries, ∀ q ∈ f.parameters, q.name ≠ m.1)
    (locals : ∀ m ∈ sitesOf entries, ∀ w ∈ f.locals, w.name = m.1 → w.stackOffset = m.2)
    (unique : ∀ m ∈ sitesOf entries, ∀ n ∈ sitesOf entries, m.1 = n.1 → m.2 = n.2) :
    Works d pointerSize (addLocals entry entries) s
      (fun _ t => ∃ ids, t.Shows (fun e => t.variableLook e.2.type) entries ids ∧
        Draws entry { f with locals := (localsOf entries ids).foldl putLocal f.locals } symbols [] s t)
      AnyFault := by
  induction entries generalizing s f with
  | nil => exact Works.pure hs ⟨[], .nil, .refl hp⟩
  | cons e rest ih =>
      obtain ⟨name, v⟩ := e
      obtain ⟨htype, hheld⟩ := typed _ List.mem_cons_self
      have later : sitesOf rest ⊆ sitesOf ((name, v) :: rest) := by
        unfold sitesOf
        rw [List.filterMap_cons]
        split
        · exact fun _ h => h
        · exact fun _ h => List.mem_cons_of_mem _ h
      have first {given : String} (hgiven : inked? name = some given) :
          (given, v.storage.stackOffset) ∈ sitesOf ((name, v) :: rest) := by
        simp [sitesOf, hgiven]
      -- what comes after has a function with this local, or without it
      have onward {t : Session} (ht : t.Imported d pointerSize) {id : TypeId} {g : Function}
          (hid : id < t.program.arena.size ∧ t.variableLook v.type = some (t.look id))
          (hg : g = { f with locals := (localsOf [(name, v)] [id]).foldl putLocal f.locals })
          (htold : Draws entry g symbols [] s t) :
          Works d pointerSize (addLocals entry rest) t
            (fun _ u => ∃ ids, u.Shows (fun e => u.variableLook e.2.type) ((name, v) :: rest) ids ∧
              Draws entry { f with locals := (localsOf ((name, v) :: rest) ids).foldl putLocal f.locals }
                symbols [] s u) AnyFault := by
        subst hg
        refine (ih ht htold.stands (fun e he => typed e (List.mem_cons_of_mem _ he))
          (fun m hm => parameters m (later hm)) (fun m hm w hw hname => ?_)
          fun m hm n hn => unique m (later hm) n (later hn)).mono
          (fun _ u _ hup hu => ?_) fun _ _ _ _ h => h
        · cases hink : inked? name with
          | none => exact locals m (later hm) w (by simpa [localsOf, hink] using hw) hname
          | some given =>
              have hw : w ∈ putLocal f.locals
                  { name := given, type := id, stackOffset := v.storage.stackOffset } := by
                simpa [localsOf, hink] using hw
              rcases mem_insertLocal.mp hw with rfl | hw
              · exact unique _ (first hink) m (later hm) hname
              · exact locals m (later hm) w (List.mem_filter.mp hw).1 hname
        · obtain ⟨ids, hids, hdraws⟩ := hu
          refine ⟨id :: ids, .cons ⟨Nat.lt_of_lt_of_le hid.1 hup.size_le, ?_⟩ hids, ?_⟩
          · rw [hup.look hid.1]
            exact hup.variableLook ht.sound hid.2
          · have split : localsOf ((name, v) :: rest) (id :: ids) =
                localsOf [(name, v)] [id] ++ localsOf rest ids := by
              rw [localsOf, localsOf, localsOf, ← List.filterMap_append]
              rfl
            rw [split, List.foldl_append]
            exact htold.trans hdraws
      refine Works.bind (Works.inside hs 3 (Works.variableTypeOf numbered hs htype hheld))
        fun id t ht _ hid => ?_
      have free : ∀ given, inked? name = some given → (∀ q ∈ f.parameters, q.name ≠ given) ∧
          ∀ w ∈ f.locals, w.name = given → w.stackOffset = v.storage.stackOffset :=
        fun given hgiven => ⟨parameters _ (first hgiven), locals _ (first hgiven)⟩
      refine Works.bind (addLocal_works ht (hid.2.stands hp) free) fun _ u hu hup hadded => ?_
      refine onward hu ⟨Nat.lt_of_lt_of_le hid.1.1 hup.size_le, ?_⟩ rfl (hadded.after hid.2)
      rw [hup.look hid.1.1]
      exact hup.variableLook ht.sound hid.1.2

/-! ## A whole definition -/

/-- A definition of the document: its values are of the right kinds and its types are numbered. -/
structure IsDefinition (d : Document) (x : FunctionDefinition) : Prop where
  typed : Document.WellTypedFunction x
  parts : ∀ n ∈ (Node.functionType x.type).parts, d.Holds n
  locals : ∀ v ∈ x.locals, d.Holds v.type

namespace IsDefinition

theorem parameters (hx : IsDefinition d x) : ∀ v ∈ x.type.parameters.getD [],
    v.common.name.IsName ∧ v.type.WellTyped ∧ d.Holds v.type := by
  intro v hv
  have hpart : v.type ∈ (Node.functionType x.type).parts :=
    List.mem_append_right _ (List.mem_map_of_mem hv)
  refine ⟨?_, hx.typed.type.part hpart, hx.parts _ hpart⟩
  cases hp : x.type.parameters with
  | none => simp [hp] at hv
  | some vs => exact hx.typed.parameters vs hp v (by simpa [hp] using hv)

theorem stackLocals (hx : IsDefinition d x) : ∀ e ∈ (stackLocals x).entries,
    e.2.type.WellTyped ∧ d.Holds e.2.type := fun e he =>
  have hlocal := (mem_stackLocals he).1
  ⟨(hx.typed.locals e.2 hlocal).2, hx.locals e.2 hlocal⟩

end IsDefinition

theorem setLocals_works (numbered : d.IsNumbered) (hs : s.Imported d pointerSize)
    (hp : s.program.Stands entry f symbols) (hx : IsDefinition d x)
    (parameters : ∀ q ∈ f.parameters,
      Json.text q.name ∈ (x.type.parameters.getD []).map (·.common.name))
    (ordered : InOrder f.locals) (locals : ∀ v ∈ f.locals, v.site ∈ sitesOf (stackLocals x).entries) :
    Works d pointerSize (setLocals entry x) s
      (fun _ t => ∃ ids, t.Shows (fun e => t.variableLook e.2.type) (stackLocals x).entries ids ∧
        Draws entry
          { f with locals := (localsOf (stackLocals x).entries ids).foldl putLocal [] } symbols [] s t)
      AnyFault := by
  rw [setLocals, setLocalsBeside_eq hx.typed]
  refine (addLocals_works numbered hs hp hx.stackLocals (fun m hm q hq hname => ?_)
    (fun m hm w hw hname => ?_) fun m hm n hn hname => ?_).mono (fun _ t _ _ ht => ?_)
    fun _ _ _ _ h => h
  · exact not_parameter hm (hname ▸ parameters q hq)
  · have hsite := locals w hw
    rw [LocalVariable.site, hname] at hsite
    exact offset_unique hsite hm
  · exact offset_unique hm (show (m.1, n.2) ∈ _ from hname ▸ hn)
  · obtain ⟨ids, hids, hdraws⟩ := ht
    refine ⟨ids, hids, ?_⟩
    rwa [foldl_putLocal_covered ordered fun w hw => ?_] at hdraws
    have hsite := locals w hw
    rw [← sites_localsOf (List.Forall₂.length_eq hids).symm] at hsite
    obtain ⟨v, hv, hvw⟩ := List.mem_map.mp hsite
    exact ⟨v, hv, LocalVariable.meets_of_site hvw⟩

/-- The length of a type in a session. -/
abbrev Session.lengthOf (s : Session) (id : TypeId) : Int := s.program.arena.length id

theorem Upholds.lengthOf (h : Upholds s t) {id : TypeId} (hid : id < s.program.arena.size) :
    t.lengthOf id = s.lengthOf id := congrArg Look.length (h.look hid)

theorem Recalls.lengthOf (h : Recalls s t) {id : TypeId} (hid : id < s.program.arena.size) :
    t.lengthOf id = s.lengthOf id := congrArg Look.length (h.look hid)

/-- What is told of a function in one session is told of it in the next. -/
theorem Recalls.told (h : Recalls s t) {τ : Typing} (hτ : s.Fits x τ) :
    τ.told t.program.convention t.lengthOf x file f =
      τ.told s.program.convention s.lengthOf x file f := by
  rw [h.convention]
  exact Typing.told_congr fun id hid => h.lengthOf (hτ.parameters.lt_size hid)

/-- The function of a definition is told by it and by the types of its parts. -/
theorem describe_works (numbered : d.IsNumbered) (hs : s.Imported d pointerSize)
    (hp : s.program.Stands entry f symbols) (hx : IsDefinition d x)
    (drafted : Drafted pointerSize x f) :
    Works d pointerSize (do
        nameFunction entry x file
        setReturnType entry x
        setParameters entry x
        annotateLines x
        annotateInlined x file
        setLocals entry x
        return true) s
      (fun made t => made = true ∧ ∃ τ, t.Fits x τ ∧
        Draws entry (τ.told t.program.convention t.lengthOf x file f)
          (curated entry x.common.name symbols) (assignments s.outputLines s.markInlined x file) s t)
      AnyFault := by
  have named : ∀ {e}, checkName x.common.name = .error e → f.name = defaultName entry := by
    intro e he
    rw [← hp.here]
    exact drafted.name he
  refine Works.bind (nameFunction_works hs hp named) fun _ t₁ h₁ up₁ draws₁ => ?_
  refine Works.bind (setReturnType_works numbered h₁ draws₁.stands hx.typed hx.parts drafted.returns)
    fun _ t₂ h₂ up₂ told₂ => ?_
  obtain ⟨r, hr, draws₂⟩ := told₂
  refine Works.bind (setParameters_works numbered h₂ draws₂.stands hx.parameters drafted.undeclared
    drafted.refused) fun _ t₃ h₃ up₃ told₃ => ?_
  obtain ⟨ids, keep, hids, draws₃⟩ := told₃
  rw [← bind_assoc]
  refine Works.bind (annotate_works h₃ draws₃.stands) fun _ t₄ h₄ up₄ draws₄ => ?_
  refine Works.bind (setLocals_works numbered h₄ draws₄.stands hx
    (fun q hq => (List.of_mem_zip (exists_of_mem_parametersTold hq)).1)
    (drafted.ordered.sublist List.filter_sublist)
    fun v hv => drafted.locals v (List.mem_filter.mp hv).1) fun _ t₅ h₅ up₅ told₅ => ?_
  obtain ⟨ids', hids', draws₅⟩ := told₅
  have up₃₅ := up₄.trans up₅
  have fits : t₅.Fits x ⟨r, ids, ids'⟩ := by
    refine ⟨?_, hids.mono (up₃₅.recalls h₃.sound) fun _ _ => up₃₅.parameterLook h₃.sound, hids'⟩
    rw [h₅.unspoilt.pointers]
    have up₂₅ := up₃.trans up₃₅
    exact hr.mono (up₂₅.recalls h₂.sound) fun _ _ => up₂₅.outlook h₂.sound
  refine Works.pure h₅ ⟨rfl, ⟨r, ids, ids'⟩, fits, ?_⟩
  have parameters : parametersTold t₅.program.convention t₅.lengthOf (ownName entry x.common.name)
      (Typing.declared ⟨r, ids, ids'⟩ x) = parametersTold t₃.program.convention
        t₃.program.arena.length (ownName entry x.common.name) (Typing.declared ⟨r, ids, ids'⟩ x) := by
    rw [up₃₅.convention]
    exact parametersTold_congr fun q hq =>
      up₃₅.lengthOf (hids.lt_size (Typing.type_of_mem_declared hq))
  have all := (((draws₁.trans draws₂).trans draws₃).trans draws₄).trans draws₅
  rw [((up₁.trans up₂).trans up₃).outputLines, ((up₁.trans up₂).trans up₃).markInlined,
    List.append_nil] at all
  rw [Typing.told, hp.here, parameters]
  exact all

end

end Import

end StabsImport

import StabsImport.Proofs.Stages

/-!
# Walks over the later stages

The stages of functions and of globals are made of resolution, edits of the program, counts and
notices. What each of these keeps to, a whole stage keeps to; the edits that a definition or a global
asks for are told in one place.
-/

namespace StabsImport

/-- The programs before and after the edit are so related, whatever it ends with. -/
def Program.MovesWithin {α : Type} (E : Program → Program → Prop) (e : Edit α) : Prop :=
  ∀ p, Runs e p (fun _ q => E p q) fun _ q => E p q

/-- A relation between programs that leads on from edit to edit, and is not about their types. -/
class Program.Untyped (E : Program → Program → Prop) : Prop where
  refl (p : Program) : E p p
  trans {p q r : Program} : E p q → E q r → E p r
  types (p : Program) (arena : Arena) (registry : Ledger Json TypeId) :
    E p { p with arena, registry }

namespace Program.MovesWithin

variable {E : Program → Program → Prop} {α β : Type}

theorem modify {f : Program → Program} (h : ∀ p, E p (f p)) : MovesWithin E (modify f) := h

theorem get {f : Program → Edit α} (h : ∀ p, Runs (f p) p (fun _ q => E p q) fun _ q => E p q) :
    MovesWithin E (get >>= f) := h

variable [Untyped E]

theorem pure (a : α) : MovesWithin E (pure a) := Untyped.refl

theorem throw (e : Fault) : MovesWithin E (throw e : Edit α) := Untyped.refl

theorem bind {m : Edit α} {f : α → Edit β} (hm : MovesWithin E m)
    (hf : ∀ a, MovesWithin E (f a)) : MovesWithin E (m >>= f) := by
  intro p
  rw [Runs.bind_iff]
  refine Runs.mono (hm p) (fun a q hq => ?_) fun _ _ h => h
  exact Runs.mono (hf a q) (fun _ _ h => Untyped.trans hq h) fun _ _ h => Untyped.trans hq h

theorem ofResult (r : Except Fault α) : MovesWithin E (ofResult r) := by
  cases r with
  | ok a => exact pure a
  | error e => exact throw e

theorem ofExcept (r : Except Rejection α) : MovesWithin E (ofExcept r) := by
  cases r with
  | ok a => exact pure a
  | error cause => exact throw _

theorem view (f : Program → Except Fault α) : MovesWithin E (view f) := get fun _ => ofResult _ _

theorem forM {f : β → Edit PUnit} {l : List β} (hf : ∀ b ∈ l, MovesWithin E (f b)) :
    MovesWithin E (l.forM f) := by
  induction l with
  | nil => exact pure _
  | cons b rest ih =>
      exact (hf b List.mem_cons_self).bind fun _ => ih fun c hc => hf c (List.mem_cons_of_mem _ hc)

end Program.MovesWithin

/-- A relation between programs that leads on from edit to edit, and is about data and, of each
function, about where it is and which variables it has. -/
class Program.Structural (E : Program → Program → Prop) : Prop where
  trans {p q r : Program} : E p q → E q r → E p r
  aside {p q : Program} : q.functions = p.functions → q.data = p.data → E p q
  retold (p : Program) (entry : Int) {f : Function → Function}
    (hf : ∀ g, ∃ name comment returnType, f g = { g with name, comment, returnType }) :
    E p { p with functions := p.functions.update entry f }

namespace Program.Structural

variable {E : Program → Program → Prop} [Structural E]

instance : Untyped E where
  refl _ := aside rfl rfl
  trans := trans
  types _ _ _ := aside rfl rfl

theorem setSymbols (p : Program) (address : Whole) (symbols : List Symbol) :
    E p (p.setSymbols address symbols) := aside rfl rfl

theorem renameFunction (entry : Int) (name : Json) (source : SourceKind) :
    MovesWithin E (renameFunction entry name source) := by
  refine MovesWithin.bind (.ofResult _) fun name => .get fun p => ?_
  have named (symbols : Program → List Symbol) (address : Whole) : MovesWithin E (do
      modify fun p => p.setSymbols address (symbols p)
      editFunction entry ({ · with name })) :=
    MovesWithin.bind (.modify fun p => setSymbols p _ _) fun _ =>
      .modify fun p => retold p entry fun _ => ⟨_, _, _, rfl⟩
  exact named _ _ p

theorem setFunctionComment (entry : Int) (comment : Json) :
    MovesWithin E (setFunctionComment entry comment) :=
  .modify fun p => retold p entry fun _ => ⟨_, _, _, rfl⟩

theorem setReturnType (entry : Int) (type : Option TypeId) :
    MovesWithin E (setReturnType entry type) := by
  cases type with
  | none => exact .get fun _ => MovesWithin.throw (E := E) _ _
  | some type => exact .modify fun p => retold p entry fun _ => ⟨_, _, _, rfl⟩

theorem removeSymbolAt (address : Int) (index : Nat) :
    MovesWithin E (removeSymbolAt address index) := by
  refine .modify fun p => ?_
  dsimp only
  split
  · exact aside rfl rfl
  · split
    · exact setSymbols p _ _
    · exact trans (setSymbols p _ _) (retold _ address fun _ => ⟨_, _, _, rfl⟩)

theorem setComment (address : Int) (kind : CommentKind) (text : Option String) :
    MovesWithin E (setComment address kind text) := .modify fun _ => aside rfl rfl

theorem createLabel (address : Whole) (name : Json) (makePrimary : Bool) :
    MovesWithin E (createLabel address name makePrimary) := by
  refine MovesWithin.bind (.ofResult _) fun name => .get fun p => ?_
  dsimp only
  split
  · split
    · exact setSymbols p _ _
    · exact aside rfl rfl
  · exact setSymbols p _ _

theorem dropStale (entry : Int) (name : Json) (symbols : List Symbol) :
    MovesWithin E (Import.dropStale entry name symbols) := by
  induction symbols with
  | nil => exact .pure _
  | cons s rest ih =>
      have drop : MovesWithin E (Import.dropSymbol entry s) := .get fun p => by
        split
        · exact removeSymbolAt entry _ p
        · exact aside rfl rfl
      rw [Import.dropStale]
      split
      · exact drop.bind fun _ => ih
      · exact ih

end Program.Structural

namespace Import

open Document (FunctionDefinition SourceFile Variable Node)
open Program (MovesWithin Untyped)

variable {E : Program → Program → Prop} {R : Session → Session → Prop} {s s' : Session} {α : Type}

theorem Preserves.reportFault [Stepwise R] (source : String) (e : Fault) :
    Preserves R (reportFault source e) :=
  .diagnose _ _

/-- The entry of the function that is at a low address. -/
def foundAt (p : Program) (low : Bound) : Option Int :=
  low.whole?.filter fun entry => p.functions.contains entry

/-- Makes the function of a definition, or refuses to. -/
def makeAt (d : FunctionDefinition) (last : Bound) : Bound → ImportM Unit
  | .whole low => makeFunction d low last
  | .real x => refuseFraction d x last

/-- A function is there, or one is made or refused and looked for again. -/
theorem runs_findOrMake {d : FunctionDefinition} {low last : Bound}
    {ok : Option Int → Session → Prop} {bad : Fault → Session → Prop} :
    Runs (findOrMake d low last) s ok bad ↔
      (foundAt s.program low).elim
        (Runs (makeAt d last low) s (fun _ t => ok (foundAt t.program low) t) fun e t =>
          if e.isRejection then
            Runs (diagnose functionsSource
              s!"Failed to create function {d.common.name.plain}: {e.message}") t
              (fun _ u => ok (foundAt u.program low) u) bad
          else bad e t)
        fun entry => ok (some entry) s := by
  unfold findOrMake
  simp only [Runs.bind_iff, Runs.get_iff, Runs.pure_iff]
  cases h : foundAt s.program low with
  | some entry =>
      rw [foundAt] at h
      rw [h]
      exact Iff.rfl
  | none =>
      rw [foundAt] at h
      rw [h]
      show Runs (onRejection (makeAt d last low) _ >>= _) s ok bad ↔ _
      rw [Runs.bind_iff, runs_onRejection]
      exact Iff.rfl

/-- The relation takes such edits, and all that resolution does. -/
structure Staged (E : Program → Program → Prop) (R : Session → Session → Prop) : Prop where
  edited {s : Session} {p : Program} (h : E s.program p) : R s { s with program := p }
  counted (s : Session) (stats : Stats) : R s { s with stats }
  prepared : Preserves R prepare
  checked : Preserves R isCancelled
  typed (node : Node) (hint : Json) : Preserves R (typeOf node hint)
  varied (node : Node) : Preserves R (variableTypeOf (some node))
  pointed (target : TypeId) : Preserves R (pointerTo target)

/-- The function of a definition starts at this address. -/
def StartsAt (d : FunctionDefinition) (entry : Int) : Prop :=
  ∃ low last, bodyOf d = .ok (low, last) ∧ low.whole? = some entry

/-- The edits up to the parameters of a definition are such. -/
structure NamingEdits (E : Program → Program → Prop) (d : FunctionDefinition)
    (file : SourceFile) : Prop where
  make {low : Whole} {last : Bound} (h : bodyOf d = .ok (.whole low, last)) :
    MovesWithin E (if last.lt (.whole low) then Program.createFunction .null low none .analysis
      else Program.createFunction d.common.name low (some (low, last)) .analysis)
  drop {entry : Int} (h : StartsAt d entry) :
    MovesWithin E (do dropStale entry d.common.name ((← get).symbolsAt entry))
  rename {entry : Int} (h : StartsAt d entry) :
    MovesWithin E (Program.renameFunction entry d.common.name .analysis)
  comment {entry : Int} (h : StartsAt d entry) :
    MovesWithin E (Program.setFunctionComment entry file.path)
  returns {entry : Int} (h : StartsAt d entry) (id : TypeId) :
    MovesWithin E (Program.setReturnType entry (some id))

/-- The edits past the parameters of a definition are such. -/
structure DetailEdits (E : Program → Program → Prop) (d : FunctionDefinition)
    (file : SourceFile) : Prop where
  lines : MovesWithin E (d.lineNumbers.forM fun l =>
    Program.setComment l.address .eol (some s!"Line {l.line}"))
  inlined : MovesWithin E
    ((inlineBoundaries (primaryPath d.relativePath file.relativePath) d.breadcrumbs).forM
      fun b => Program.setComment b.address .pre (some b.comment))
  locals {entry : Int} (h : StartsAt d entry) (name : Json) (type : TypeId) (stackOffset : Int) :
    MovesWithin E (Program.addLocal entry name type stackOffset)

/-- All the edits that a definition asks for are such. -/
structure FunctionEdits (E : Program → Program → Prop) (d : FunctionDefinition)
    (file : SourceFile) : Prop extends NamingEdits E d file, DetailEdits E d file where
  parameters {entry : Int} (h : StartsAt d entry) (parameters : List (Json × TypeId)) :
    MovesWithin E (Program.replaceParameters entry parameters)

/-- What is done for a definition is made of such edits up to its parameters, and keeps to the
relation from there. -/
structure FunctionWork (E : Program → Program → Prop) (R : Session → Session → Prop)
    (d : FunctionDefinition) (file : SourceFile) : Prop extends NamingEdits E d file where
  parameters {entry : Int} (h : StartsAt d entry) : Preserves R (setParameters entry d)
  lines : Preserves R (setLineComments d)
  inlined : Preserves R (markInlined d file)
  locals {entry : Int} (h : StartsAt d entry) : Preserves R (setLocals entry d)

/-- All the edits that a global asks for are such. -/
structure GlobalEdits (E : Program → Program → Prop) (v : Variable) : Prop where
  data (type : TypeId) (length : Int) :
    MovesWithin E (Program.createData v.storage.globalAddress type length true)
  label : MovesWithin E (Program.createLabel (.ofInt v.storage.globalAddress) v.common.name true)

namespace Staged

variable [Stepwise R] (h : Staged E R)

include h

omit [Stepwise R] in
theorem edit {e : Edit α} (he : MovesWithin E e) : Preserves R (Import.edit e) := by
  intro s
  rw [runs_edit]
  exact Runs.mono (he s.program) (fun _ _ hq => h.edited hq) fun _ _ hq => h.edited hq

omit [Stepwise R] in
theorem count (f : Stats → Stats) : Preserves R (Import.count f) := .modify fun s => h.counted s _

theorem parametersOf (vs : List Variable) : Preserves R (Import.parametersOf vs) := by
  induction vs with
  | nil => exact .pure _
  | cons v rest ih =>
      have type : Preserves R (parameterType v) := by
        refine (Preserves.inside 3 (h.varied v.type)).bind fun type => ?_
        split
        · exact h.pointed type
        · exact .pure type
      rw [parametersOf_cons]
      refine type.bind fun type => ?_
      split
      · exact (Preserves.throw _).bind fun _ => ih.bind fun _ => .pure _
      · exact (Preserves.pure _).bind fun _ => ih.bind fun _ => .pure _

/-! ## Functions -/

variable {d : FunctionDefinition} {file : SourceFile} {entry : Int}

/-- What is found or made starts where the definition says. -/
theorem findOrMake (hd : NamingEdits E d file) {low last : Bound}
    (hbody : bodyOf d = .ok (low, last)) (s : Session) :
    Runs (Import.findOrMake d low last) s
      (fun found t => R s t ∧ ∀ entry ∈ found, StartsAt d entry) fun _ t => R s t := by
  have starts {p : Program} : ∀ entry ∈ foundAt p low, StartsAt d entry :=
    fun entry he => ⟨low, last, hbody, (Option.mem_filter_iff.mp he).1⟩
  have make : Preserves R (makeAt d last low) := by
    cases low with
    | whole low =>
        have hmake := h.edit (hd.make hbody)
        unfold makeAt makeFunction
        exact hmake
    | real x =>
        refine .get fun s => ?_
        dsimp only
        split
        · exact .throw _
        · split
          · split
            · exact .throw _
            · exact .throw _
          · exact .throw _
  rw [runs_findOrMake]
  cases hfound : foundAt s.program low with
  | some entry => exact ⟨Stepwise.refl s, fun e hm => starts e (hfound ▸ hm)⟩
  | none =>
      refine Runs.mono (make s) (fun _ t ht => ⟨ht, starts⟩) fun e t ht => ?_
      split
      · have hd : Preserves R (diagnose functionsSource
            s!"Failed to create function {d.common.name.plain}: {e.message}") := .diagnose _ _
        exact Runs.mono (hd t) (fun _ u hu => ⟨Stepwise.trans ht hu, starts⟩)
          fun _ _ hu => Stepwise.trans ht hu
      · exact ht

theorem nameFunction (hd : NamingEdits E d file) (hs : StartsAt d entry) :
    Preserves R (Import.nameFunction entry d file) :=
  (h.edit (hd.drop hs)).bind fun _ =>
    (Preserves.onRejection (h.edit (hd.rename hs)) (.reportFault _)).bind fun _ =>
      h.edit (hd.comment hs)

theorem setReturnType (hd : NamingEdits E d file) (hs : StartsAt d entry) :
    Preserves R (Import.setReturnType entry d) := by
  unfold Import.setReturnType
  split
  · exact .pure _
  · refine .onTypeFault ?_ (.reportFault _)
    exact (Preserves.inside 1 (h.typed _ _)).bind fun id => h.edit (hd.returns hs id)

theorem setParameters (hd : FunctionEdits E d file) (hs : StartsAt d entry) :
    Preserves R (Import.setParameters entry d) := by
  have replace (declared : List Variable) : Preserves R (do
      let parameters ← Import.parametersOf declared
      onRejection
        (do
          Import.edit (Program.replaceParameters entry parameters)
          Import.count fun t => { t with parameters := t.parameters + parameters.length })
        fun e => diagnose functionsSource
          s!"Failed to setup parameters for {d.common.name.plain}: {e.message}") :=
    (h.parametersOf declared).bind fun parameters =>
      .onRejection ((h.edit (hd.parameters hs parameters)).bind fun _ => h.count _) fun _ =>
        .diagnose _ _
  unfold Import.setParameters
  dsimp only
  split
  · exact .pure _
  · exact replace _

theorem setLocals (hd : DetailEdits E d file) (hs : StartsAt d entry) :
    Preserves R (Import.setLocals entry d) := by
  have add (locals : List (Json × Variable)) : Preserves R (addLocals entry locals) := by
    induction locals with
    | nil => exact .pure _
    | cons l rest ih =>
        refine (Preserves.inside 3 (h.varied l.2.type)).bind fun type => ?_
        refine (Preserves.onRejection ?_ (.reportFault _)).bind fun _ => ih
        exact (h.edit (hd.locals hs _ _ _)).bind fun _ => h.count _
  unfold Import.setLocals setLocalsBeside
  split
  · exact (Preserves.throw _).bind fun _ => add _
  · exact (Preserves.pure _).bind fun _ => add _

theorem functionWork (hd : FunctionEdits E d file) : FunctionWork E R d file where
  toNamingEdits := hd.toNamingEdits
  parameters := h.setParameters hd
  lines := (h.edit hd.lines).bind fun _ => h.count _
  inlined := (h.edit hd.inlined).bind fun _ => h.count _
  locals := h.setLocals hd.toDetailEdits

/-- What is done to the function of a definition once it is there. -/
theorem describeFunction (hd : FunctionWork E R d file) (hs : StartsAt d entry) :
    Preserves R (do
      Import.nameFunction entry d file
      Import.setReturnType entry d
      Import.setParameters entry d
      if (← get).outputLines then setLineComments d
      if (← get).markInlined then markInlined d file
      Import.setLocals entry d
      return true) := by
  have locals : Preserves R (do Import.setLocals entry d; return true) :=
    (hd.locals hs).bind fun _ => .pure _
  have inlined : Preserves R (do
      if (← MonadState.get).markInlined then markInlined d file
      Import.setLocals entry d
      return true) := .get fun s => by
    dsimp only
    split
    · exact hd.inlined.bind fun _ => locals
    · exact locals
  refine (h.nameFunction hd.toNamingEdits hs).bind fun _ =>
    (h.setReturnType hd.toNamingEdits hs).bind fun _ =>
    (hd.parameters hs).bind fun _ => .get fun s => ?_
  dsimp only
  split
  · exact hd.lines.bind fun _ => inlined
  · exact inlined

theorem importFunction (hd : FunctionWork E R d file) :
    Preserves R (Import.importFunction d file) := by
  intro s
  rw [Import.importFunction, Runs.bind_iff]
  cases hbody : bodyOf d with
  | error e => exact Stepwise.refl s
  | ok range =>
      refine (Runs.bind_iff _ _).mpr ?_
      refine Runs.mono (h.findOrMake hd.toNamingEdits hbody s) (fun found t ht => ?_) fun _ _ ht => ht
      cases found with
      | none => exact ht.1
      | some entry =>
          exact Runs.mono (h.describeFunction hd (ht.2 entry rfl) t)
            (fun _ _ hu => Stepwise.trans ht.1 hu) fun _ _ hu => Stepwise.trans ht.1 hu

theorem importFunctionsFrom {l : List (FunctionDefinition × SourceFile)}
    (hl : ∀ x ∈ l, isComplete x.1 = true → FunctionWork E R x.1 x.2) :
    Preserves R (Import.importFunctionsFrom l) := by
  induction l with
  | nil => exact .pure _
  | cons x rest ih =>
      obtain ⟨d, file⟩ := x
      have hrest := ih fun y hy => hl y (List.mem_cons_of_mem _ hy)
      refine h.checked.bind fun cancelled => ?_
      dsimp only
      split
      · exact .pure _
      split
      · exact (h.count _).bind fun _ => hrest
      · next hc =>
          have hd := hl _ List.mem_cons_self (by simpa using hc)
          refine (h.importFunction hd).bind fun made => ?_
          split
          · exact (h.count _).bind fun _ => hrest
          · exact (h.count _).bind fun _ => hrest

/-- The stage of functions does what the definitions of the document ask for. -/
theorem importFunctions
    (hl : ∀ x ∈ definitions s.document, isComplete x.1 = true → FunctionWork E R x.1 x.2) :
    Runs Import.importFunctions s (fun _ t => R s t) fun _ t => R s t := by
  have hprepare : Preserves (Quiet fun _ => True) prepare := prepare_quiet
  rw [Import.importFunctions, Runs.bind_iff]
  refine Runs.mono ((h.prepared s).and (hprepare s)) (fun _ t ht => ?_) fun _ _ ht => ht.1
  have hfrom := h.importFunctionsFrom (l := definitions t.document) (by rw [ht.2.document]; exact hl)
  exact Runs.mono (hfrom t) (fun _ _ hu => Stepwise.trans ht.1 hu)
    fun _ _ hu => Stepwise.trans ht.1 hu

/-! ## Globals -/

theorem placeGlobal {v : Variable} (hv : GlobalEdits E v) :
    Preserves R (Import.placeGlobal v) := by
  have data (type : TypeId) : Preserves R (do
      Import.edit (Program.createData v.storage.globalAddress type
        (← Import.typeLength type) true)) := by
    have length : Preserves R (Import.typeLength type) := fun s => Stepwise.refl s
    exact length.bind fun _ => h.edit (hv.data _ _)
  refine (Preserves.inside 1 (h.varied v.type)).bind fun type => ?_
  refine (Preserves.onRejection (data type) (.reportFault _)).bind fun _ => ?_
  refine (Preserves.onRejection ?_ (.reportFault _)).bind fun _ => h.count _
  exact (h.edit hv.label).bind fun _ => .pure _

theorem importGlobalsFrom {l : List Variable} (hl : ∀ v ∈ l, Preserves R (Import.placeGlobal v)) :
    Preserves R (Import.importGlobalsFrom l) := by
  induction l with
  | nil => exact .pure _
  | cons v rest ih =>
      have hrest := ih fun w hw => hl w (List.mem_cons_of_mem _ hw)
      refine h.checked.bind fun cancelled => ?_
      split
      · exact .pure _
      split
      · exact (hl v List.mem_cons_self).bind fun _ => hrest
      · exact hrest

theorem importGlobals (hl : ∀ v, Preserves R (Import.placeGlobal v)) :
    Preserves R Import.importGlobals :=
  h.prepared.bind fun _ => .get fun _ => h.importGlobalsFrom fun v _ => hl v

end Staged

/-! ## Programs alone -/

/-- The programs of the sessions are so related. -/
def Programs (E : Program → Program → Prop) (s s' : Session) : Prop := E s.program s'.program

section

variable [Untyped E]

instance : Additive (Programs E) where
  refl s := Untyped.refl s.program
  trans := Untyped.trans
  push s _ := Untyped.types s.program _ _
  report s _ := Untyped.refl s.program
  share s _ _ := Untyped.refl s.program
  inside _ h := h

theorem Frame.programs {may : TypeId → Prop} (h : Frame may s s') : Programs E s s' := by
  rw [Programs, h.program]
  exact Untyped.types _ _ _

/-- What is not about types is told by the edits of the stages alone. -/
theorem untyped_staged : Staged E (Programs E) := by
  have plain {α : Type} {m : ImportM α} (h : Preserves (Frame fun _ => True) m) :
      Preserves (Programs E) m :=
    fun s => Runs.mono (h s) (fun _ _ h => h.programs) fun _ _ h => h.programs
  have guarded {α : Type} {m : ImportM α} (h : Preserves (GuardedFrame fun _ => True) m) :
      Preserves (Programs E) m :=
    fun s => Runs.mono (h s) (fun _ _ h => (h (.inl fun _ => trivial)).programs)
      fun _ _ h => (h (.inl fun _ => trivial)).programs
  constructor
  · exact fun h => h
  · exact fun s _ => Untyped.refl s.program
  · exact plain prepare_quiet.frame
  · exact plain isCancelled_quiet.frame
  · exact fun node hint => guarded (typeOf_frame node hint)
  · exact fun node => guarded (variableTypeOf_frame node)
  · exact fun target => .pointerTo target

end

end Import

end StabsImport

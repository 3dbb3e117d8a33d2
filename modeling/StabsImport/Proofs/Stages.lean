import StabsImport.Import.Globals
import StabsImport.Proofs.Edits
import StabsImport.Proofs.Frames
import StabsImport.Proofs.TypeStage

/-!
# What the later stages do to types

The stages of functions and globals make types only by resolution. All else they do to a program
leaves its types alone. What the program refuses of an item is reported there, so that with the
document's values of the right kinds nothing ends a stage but stack slots without a size.
-/

namespace StabsImport.Import

open Document (FunctionDefinition SourceFile Variable Node)

variable {s s' : Session} {d : Document} {isSet : Nat → Prop} {C : Prop} {α β : Type} {L : Scope}

def AnyFault : Fault → Session → Prop := fun _ _ => True

theorem After.program (hs : s.Sound) {p : Program} (h : SameTypes s.program p) :
    After L s { s with program := p } := by
  refine ⟨{ Extends.refl s with pointerSize := h.pointerSize, evolves := ?_, registry := ?_ }, ?_⟩
  · simp only [h.arena]
    exact (Extends.refl (L := L) s).evolves
  · simp only [h.registry]
    exact fun h => h
  · refine hs.withProgram (h.sound hs.program) (by rw [h.arena]) ?_ ?_
      (Nat.le_of_eq (congrArg Arena.size h.arena).symm) (by rw [h.registry]; exact fun h => h)
    · rw [h.arena]
      exact fun h _ => h
    · rw [h.arena]
      exact fun {_ _ shape} hg _ => ⟨shape, hg, fun _ h => h⟩

/-! ## Room -/

/-- The nodes of which a document wants types. -/
def typeNodes (d : Document) : List Node :=
  d.types ++ d.files.flatMap fun file =>
    file.functions.flatMap (fun f => Node.functionType f.type :: f.locals.map (·.type)) ++
      file.globals.map (·.type)

/-- The room to make the type of any node of a document. -/
def itemNeed (d : Document) : Nat := nodeNeed (tableNeed d) (Node.heightOfNodes (typeNodes d))

/-- The room to import any item of a document. -/
def stageNeed (d : Document) : Nat := 3 + itemNeed d

theorem nodeNeed_le_itemNeed {node : Node} (h : node ∈ typeNodes d) :
    nodeNeed (tableNeed d) node.height ≤ itemNeed d := by
  have := Node.height_le_heightOfNodes h
  unfold itemNeed nodeNeed
  omega

theorem fillNeed_le_itemNeed (d : Document) : fillNeed d ≤ itemNeed d := by
  have height (l r : List Node) : Node.heightOfNodes l ≤ Node.heightOfNodes (l ++ r) := by
    induction l with
    | nil => exact Nat.zero_le _
    | cons n rest ih =>
        simp only [List.cons_append, Node.heightOfNodes]
        omega
  have := height d.types (d.files.flatMap fun file =>
    file.functions.flatMap (fun f => Node.functionType f.type :: f.locals.map (·.type)) ++
      file.globals.map (·.type))
  unfold fillNeed itemNeed nodeNeed typeNodes
  omega

/-! ## Stages -/

/-- What stays as it is in the course of a stage: the document, the entries that have types from
the start, whether loops may be cut, and how arguments are handed over. -/
structure Stage where
  document : Document
  isSet : Nat → Prop
  cuts : Prop
  convention : CallingConvention

/-- A session of the stage. -/
structure Stage.Holds (g : Stage) (s : Session) : Prop where
  ready : Ready g.document g.isSet s
  convention : s.program.convention = g.convention

/-- With room for so many calls, the action leads from every session of the stage to a later one,
with a value or a fault of this kind. -/
def Stage.Leads (g : Stage) (calls : Nat) (m : ImportM α) (bad : Fault → Prop)
    (ok : α → Prop := fun _ => True) : Prop :=
  ∀ ⦃s⦄, g.Holds s → s.room.allows calls = true →
    Yields { cuts := g.cuts } m s (fun a s' => s'.program.convention = g.convention ∧ ok a)
      fun e s' => s'.program.convention = g.convention ∧ bad e

/-- The slots of the stack have no size. -/
def Stage.Unaligned (g : Stage) : Fault → Prop := fun e =>
  e = .zeroAlignment ∧ g.convention.alignment = 0

/-- A fault that is reported where a type is made, or one of this kind. -/
def TypeFaultOr (bad : Fault → Prop) : Fault → Prop := fun e => e.isTypeFault = true ∨ bad e

/-- A fault that is reported where the program is edited, or one of this kind. -/
def RefusedOr (bad : Fault → Prop) : Fault → Prop := fun e => Refused e ∨ bad e

variable {g : Stage} {n : Nat} {bad : Fault → Prop}

theorem Stage.Holds.after (h : g.Holds s) (ha : After { cuts := g.cuts } s s')
    (hc : s'.program.convention = g.convention) : g.Holds s' :=
  ⟨h.ready.after ha, hc⟩

namespace Stage.Leads

theorem mono {m : ImportM α} {worse : Fault → Prop} {ok good : α → Prop} (h : g.Leads n m bad ok)
    (hbad : ∀ e, bad e → worse e) (hok : ∀ a, ok a → good a) : g.Leads n m worse good :=
  fun _ hs hr => (h hs hr).mono (fun _ _ _ h => ⟨h.1, hok _ h.2⟩) fun _ _ _ h => ⟨h.1, hbad _ h.2⟩

theorem pure {ok : α → Prop} {a : α} (h : ok a) : g.Leads n (pure a) bad ok :=
  fun _ hs _ => .pure hs.ready.sound ⟨hs.convention, h⟩

theorem throw {ok : α → Prop} {e : Fault} (h : bad e) : g.Leads n (throw e) bad ok :=
  fun _ hs _ => .throw hs.ready.sound ⟨hs.convention, h⟩

theorem bind {m : ImportM α} {f : α → ImportM β} {P : α → Prop} {Q : β → Prop}
    (hm : g.Leads n m bad P) (hf : ∀ a, P a → g.Leads n (f a) bad Q) :
    g.Leads n (m >>= f) bad Q :=
  fun _ hs hr => (hm hs hr).bind fun a _ ha h =>
    hf a h.2 (hs.after ha h.1) (by rw [ha.room]; exact hr)

theorem get {f : Session → ImportM α} {ok : α → Prop} (hf : ∀ s, g.Leads n (f s) bad ok) :
    g.Leads n (get >>= f) bad ok :=
  fun s hs hr => .get (hf s hs hr)

theorem edit {e : Edit α} {ok : α → Prop} (h : KeepsTypes e)
    (hr : ∀ p, p.Sound → p.arena.room = none → p.convention = g.convention →
      Runs e p (fun a _ => ok a) fun f _ => bad f) :
    g.Leads n (Import.edit e) bad ok := by
  intro s hs _
  have hkeeps := h s.program
  have hruns := hr s.program hs.ready.sound.program hs.ready.sound.naming hs.convention
  have convention {p : Program} (hp : SameTypes s.program p) : p.convention = g.convention :=
    hp.convention.trans hs.convention
  rw [Yields, runs_edit]
  refine Runs.mono (hkeeps.and hruns) (fun a p ha => ?_) fun f p hf => ?_
  · exact ⟨.program hs.ready.sound ha.1, convention ha.1, ha.2⟩
  · exact ⟨.program hs.ready.sound hf.1, convention hf.1, hf.2⟩

/-- An edit that keeps types is made or refused. -/
theorem refused {e : Edit α} (h : KeepsTypes e) (hr : ∀ p, Program.IsMadeOr Refused e p) :
    g.Leads n (Import.edit e) (RefusedOr bad) :=
  .edit h fun p _ _ _ => Runs.mono (hr p) (fun _ _ h => h) fun _ _ h => .inl h

/-- An edit that keeps types is made. -/
theorem made {e : Edit α} (h : KeepsTypes e)
    (hr : ∀ {bad : Fault → Prop} p, Program.IsMadeOr bad e p) :
    g.Leads n (Import.edit e) bad :=
  .edit h fun p _ _ _ => hr p

theorem inside {k calls : Nat} {m : ImportM α} {ok : α → Prop} (hk : calls + k ≤ n)
    (hm : g.Leads k m bad ok) : g.Leads n (Import.inside calls m) bad ok := by
  intro s hs hr
  have hboth : s.room.allows (calls + k) = true := Room.allows_of_le hr hk
  refine Yields.inside (Room.allows_of_le hboth (Nat.le_add_right _ _)) ?_
  exact hm ⟨hs.ready.inside _, hs.convention⟩ (Room.allows_inside hboth)

theorem onTypeFault {m : ImportM α} {handle : Fault → ImportM α} {ok : α → Prop}
    (hm : g.Leads n m (TypeFaultOr bad) ok) (hh : ∀ e, g.Leads n (handle e) bad ok) :
    g.Leads n (onTypeFault m handle) bad ok := by
  intro s hs hr
  rw [Yields, runs_onTypeFault]
  refine Runs.mono (hm hs hr) (fun _ _ h => h) fun e t he => ?_
  split
  · refine Runs.mono (hh e (hs.after he.1 he.2.1) (by rw [he.1.room]; exact hr))
      (fun _ _ h => ?_) fun _ _ h => ?_
    · exact ⟨he.1.trans h.1, h.2⟩
    · exact ⟨he.1.trans h.1, h.2⟩
  · next hother => exact ⟨he.1, he.2.1, he.2.2.resolve_left hother⟩

theorem onRejection {m : ImportM α} {handle : Fault → ImportM α} {ok : α → Prop}
    (hm : g.Leads n m (RefusedOr bad) ok) (hh : ∀ e, g.Leads n (handle e) bad ok) :
    g.Leads n (onRejection m handle) bad ok := by
  intro s hs hr
  rw [Yields, runs_onRejection]
  refine Runs.mono (hm hs hr) (fun _ _ h => h) fun e t he => ?_
  split
  · refine Runs.mono (hh e (hs.after he.1 he.2.1) (by rw [he.1.room]; exact hr))
      (fun _ _ h => ?_) fun _ _ h => ?_
    · exact ⟨he.1.trans h.1, h.2⟩
    · exact ⟨he.1.trans h.1, h.2⟩
  · next hother => exact ⟨he.1, he.2.1, he.2.2.resolve_left hother⟩

theorem diagnose {source : String} (h : source ≠ typesSource) (hn : reportingCalls ≤ n)
    (message : String) : g.Leads n (diagnose source message) bad := by
  intro s hs hr
  rw [Yields, Import.diagnose, Runs.bind_iff, runs_need, if_pos (Room.allows_of_le hr hn)]
  refine ⟨.report hs.ready.sound fun hl => absurd hl (not_isLoopNotice_of_source h), ?_⟩
  exact ⟨hs.convention, trivial⟩

theorem count (f : Stats → Stats) : g.Leads n (count f) bad := fun s hs _ =>
  .modify ⟨{ Extends.refl s with }, { hs.ready.sound with }⟩ ⟨hs.convention, trivial⟩

/-- Resolution keeps the calling convention. -/
theorem of_frame {m : ImportM α} {ok : α → Session → Prop} {bad : Fault → Session → Prop}
    {worse : Fault → Prop} (hm : Preserves (GuardedFrame fun _ => True) m) (hs : g.Holds s)
    (h : Yields { cuts := g.cuts } m s ok bad) (hbad : ∀ e s', bad e s' → worse e) :
    Yields { cuts := g.cuts } m s (fun _ s' => s'.program.convention = g.convention ∧ True)
      fun e s' => s'.program.convention = g.convention ∧ worse e := by
  have convention {t : Session} (ht : GuardedFrame (fun _ => True) s t) :
      t.program.convention = g.convention :=
    (ht (.inl fun _ => trivial)).convention.trans hs.convention
  exact (h.preserved hm).mono (fun _ _ _ h => ⟨convention h.1, trivial⟩)
    fun _ _ _ h => ⟨convention h.1, hbad _ _ h.2⟩

theorem isCancelled : g.Leads n isCancelled bad := by
  intro s hs _
  have h : Yields { cuts := g.cuts } Import.isCancelled s _ NoFault :=
    isCancelled_yields hs.ready.sound
  exact of_frame isCancelled_quiet.framing hs h fun _ _ h => h.elim

theorem prepare : g.Leads n prepare bad := by
  intro s hs _
  have h : Yields { cuts := g.cuts } Import.prepare s _ NoFault := hs.ready.sound.prepare
  exact of_frame prepare_quiet.framing hs h fun _ _ h => h.elim

theorem variableTypeOf (hl : Settles g.document g.isSet g.cuts) {node : Node}
    (ht : node.WellTyped) (hn : nodeNeed (tableNeed g.document) node.height ≤ n) :
    g.Leads n (variableTypeOf (some node)) bad := by
  intro s hs hr
  have h : Yields { cuts := g.cuts } (Import.variableTypeOf (some node)) s _ NoFault :=
    variableTypeOf_yields hl ht hs.ready (Room.allows_of_le hr hn)
  exact of_frame (variableTypeOf_frame node) hs h fun _ _ h => h.elim

theorem typeOf (hl : Settles g.document g.isSet g.cuts) {node : Node} (ht : node.WellTyped)
    (hn : nodeNeed (tableNeed g.document) node.height ≤ n) :
    g.Leads n (typeOf node .null) (TypeFaultOr bad) := fun _ hs hr =>
  of_frame (typeOf_frame node _) hs
    (typeOf_yields hl ht hs.ready (.inl rfl) (Room.allows_of_le hr hn)) fun _ _ h => .inl h

end Stage.Leads

/-! ## Functions -/

theorem functionsSource_ne : functionsSource ≠ typesSource := by decide

theorem globalsSource_ne : globalsSource ≠ typesSource := by decide

theorem reportFault_leads {source : String} (h : source ≠ typesSource) (hn : reportingCalls ≤ n)
    (e : Fault) : g.Leads n (reportFault source e) bad :=
  .diagnose h hn _

theorem bodyOf_whole {f : FunctionDefinition} (hf : Document.WellTypedFunction f)
    (hc : isComplete f = true) :
    ∃ low high, bodyOf f = .ok (.whole (.ofInt low), .whole high) := by
  simp only [isComplete, Bool.and_eq_true, decide_eq_true_eq] at hc
  obtain ⟨low, hlow⟩ := hf.low.resolve_left hc.1
  obtain ⟨high, hhigh⟩ := hf.high.resolve_left hc.2
  rw [bodyOf, hlow, hhigh]
  exact ⟨low, _, rfl⟩

theorem keepsTypes_dropStale (entry : Int) (name : Json) (symbols : List Symbol) :
    KeepsTypes (dropStale entry name symbols) := by
  induction symbols with
  | nil => exact .pure _
  | cons s rest ih =>
      have hdrop : KeepsTypes (dropSymbol entry s) := KeepsTypes.get.bind fun p => by
        split
        · exact Program.keepsTypes_removeSymbolAt entry _
        · exact .pure _
      rw [dropStale]
      split
      · exact hdrop.bind fun _ => ih
      · exact ih

theorem dropStale_made (entry : Int) (name : Json) (symbols : List Symbol) (p : Program) :
    Program.IsMadeOr bad (dropStale entry name symbols) p := by
  induction symbols generalizing p with
  | nil => exact .pure _
  | cons s rest ih =>
      have hdrop : Program.IsMadeOr bad (dropSymbol entry s) p := .get <| by
        split
        · exact .modify _
        · exact .pure _
      rw [dropStale]
      split
      · exact hdrop.bind fun _ q => ih q
      · exact ih p

theorem findOrMake_leads (f : FunctionDefinition) (hn : f.common.name.IsName)
    (hr : reportingCalls ≤ n) (low high : Whole) :
    g.Leads n (findOrMake f (.whole low) (.whole high)) bad := by
  have there : g.Leads n (do
      let p := (← get).program
      return (Bound.whole low).whole?.filter fun entry => p.functions.contains entry :
        ImportM (Option Int)) bad :=
    .get fun s => .pure trivial
  refine there.bind fun found _ => ?_
  split
  · exact .pure trivial
  · refine (Stage.Leads.onRejection ?_ fun e => .diagnose functionsSource_ne hr _).bind
      fun _ _ => there
    dsimp only
    unfold makeFunction
    split
    · exact .refused (Program.keepsTypes_createFunction _ _ _ _) fun p =>
        Program.createFunction_refused (.inl rfl) low none .analysis
    · exact .refused (Program.keepsTypes_createFunction _ _ _ _) fun p =>
        Program.createFunction_refused hn low (some (low, high)) .analysis

theorem nameFunction_leads (entry : Int) {f : FunctionDefinition} (hn : f.common.name.IsName)
    (hr : reportingCalls ≤ n) (file : SourceFile) :
    g.Leads n (nameFunction entry f file) bad := by
  have drop : g.Leads n (edit do dropStale entry f.common.name ((← get).symbolsAt entry)) bad :=
    .made (KeepsTypes.get.bind fun p => keepsTypes_dropStale _ _ _) fun p =>
      .get (dropStale_made _ _ _ p)
  have rename : g.Leads n (edit (Program.renameFunction entry f.common.name .analysis))
      (RefusedOr bad) :=
    .refused (Program.keepsTypes_renameFunction _ _ _) fun p =>
      Program.renameFunction_refused entry hn .analysis
  refine drop.bind fun _ _ => ?_
  refine (Stage.Leads.onRejection rename (reportFault_leads functionsSource_ne hr)).bind
    fun _ _ => ?_
  exact .made (Program.keepsTypes_editFunction entry _) fun p => .modify _

/-- The types of a function's signature and of its locals can be made. -/
structure FunctionFits (g : Stage) (n : Nat) (f : FunctionDefinition) : Prop where
  typed : Document.WellTypedFunction f
  signature : 3 + nodeNeed (tableNeed g.document) (Node.functionType f.type).height ≤ n
  locals : ∀ v ∈ f.locals, 3 + nodeNeed (tableNeed g.document) v.type.height ≤ n

theorem FunctionFits.part {f : FunctionDefinition} (h : FunctionFits g n f) {node : Node}
    (hp : node ∈ (Node.functionType f.type).parts) :
    node.WellTyped ∧ 3 + nodeNeed (tableNeed g.document) node.height ≤ n := by
  have hlt := Node.height_lt_of_mem_parts hp
  have hn := h.signature
  refine ⟨h.typed.type.part hp, ?_⟩
  unfold nodeNeed at hn ⊢
  omega

theorem FunctionFits.reports {f : FunctionDefinition} (h : FunctionFits g n f) :
    reportingCalls ≤ n := by
  have := reportingCalls_le_tableNeed g.document
  have hn := h.signature
  unfold nodeNeed at hn
  omega

theorem FunctionFits.parameters {f : FunctionDefinition} (h : FunctionFits g n f) {v : Variable}
    (hv : v ∈ f.type.parameters.getD []) : v.common.name.IsName ∧ v.type.WellTyped ∧
      3 + nodeNeed (tableNeed g.document) v.type.height ≤ n := by
  refine ⟨?_, h.part (List.mem_append_right _ (List.mem_map_of_mem hv))⟩
  cases hp : f.type.parameters with
  | none => simp [hp] at hv
  | some vs => exact h.typed.parameters vs hp v (by simpa [hp] using hv)

theorem setReturnType_leads (hl : Settles g.document g.isSet g.cuts) (entry : Int)
    {f : FunctionDefinition} (hf : FunctionFits g n f) :
    g.Leads n (setReturnType entry f) bad := by
  unfold setReturnType
  split
  · exact .pure trivial
  · next node hnode =>
      have hpart : node ∈ (Node.functionType f.type).parts := by simp [Node.parts, hnode]
      obtain ⟨ht, hn⟩ := hf.part hpart
      refine .onTypeFault ?_ (reportFault_leads functionsSource_ne hf.reports)
      have hin : 1 + nodeNeed (tableNeed g.document) node.height ≤ n := by omega
      refine (Stage.Leads.inside hin (.typeOf hl ht (Nat.le_refl _))).bind fun id _ => ?_
      exact .made (Program.keepsTypes_setReturnType entry _) fun p => .modify _

/-- The type of a parameter; one passed by reference is a pointer. -/
def parameterType (v : Variable) : ImportM TypeId := do
  let type ← inside 3 (variableTypeOf (some v.type))
  if v.storage.isByReference then pointerTo type else pure type

theorem parametersOf_cons (v : Variable) (rest : List Variable) :
    parametersOf (v :: rest) = do
      let type ← parameterType v
      if !v.common.name.isKey then throw .wrongKind
      return (v.common.name, type) :: (← parametersOf rest) := by
  simp only [parametersOf, parameterType, bind_assoc]
  congr
  funext type
  split <;> rfl

theorem parameterType_leads (hl : Settles g.document g.isSet g.cuts) {v : Variable}
    (ht : v.type.WellTyped) (hn : 3 + nodeNeed (tableNeed g.document) v.type.height ≤ n) :
    g.Leads n (parameterType v) bad := by
  intro s hs hr
  have hr' : s.room.allows 3 = true := Room.allows_of_le hr (by omega)
  have hin : s.room.allows (3 + nodeNeed (tableNeed g.document) v.type.height) = true :=
    Room.allows_of_le hr hn
  have hv : Yields { cuts := g.cuts } (inside 3 (variableTypeOf (some v.type))) s
      (fun id s' => id < s'.program.arena.size) NoFault :=
    Yields.inside hr' (variableTypeOf_yields hl ht (hs.ready.inside _) (Room.allows_inside hin))
  have htype : Yields { cuts := g.cuts } (parameterType v) s (fun _ _ => True) NoFault := by
    refine hv.bind fun type t ha hid => ?_
    split
    · exact (ha.sound.pointerTo (by rw [ha.room]; exact hr') hid).mono (fun _ _ _ _ => trivial)
        fun _ _ _ h => h
    · exact .pure ha.sound trivial
  have hframe : Preserves (GuardedFrame fun _ => True) (parameterType v) := by
    refine Preserves.bind (.inside 3 (variableTypeOf_frame v.type)) fun type => ?_
    split
    · exact .pointerTo type
    · exact .pure type
  exact Stage.Leads.of_frame hframe hs htype fun _ _ h => h.elim

theorem parametersOf_leads (hl : Settles g.document g.isSet g.cuts) {vs : List Variable}
    (ht : ∀ v ∈ vs, v.common.name.IsName ∧ v.type.WellTyped ∧
      3 + nodeNeed (tableNeed g.document) v.type.height ≤ n) :
    g.Leads n (parametersOf vs) bad fun named => ∀ q ∈ named, q.1.IsName := by
  induction vs with
  | nil => exact .pure nofun
  | cons v rest ih =>
      have hrest := ih fun w hw => ht w (List.mem_cons_of_mem _ hw)
      obtain ⟨hname, htype, hn⟩ := ht v List.mem_cons_self
      rw [parametersOf_cons]
      refine (parameterType_leads hl htype hn).bind fun type _ => ?_
      simp only [hname.isKey, Bool.not_true, Bool.false_eq_true, if_false]
      refine hrest.bind fun named hnamed => .pure ?_
      simpa [hname] using hnamed

theorem setParameters_leads (hl : Settles g.document g.isSet g.cuts) (entry : Int)
    {f : FunctionDefinition} (hf : FunctionFits g n f) :
    g.Leads n (setParameters entry f) g.Unaligned := by
  unfold setParameters
  dsimp only
  split
  · exact .pure trivial
  · refine (parametersOf_leads hl fun v hv => hf.parameters hv).bind fun parameters hnamed => ?_
    refine .onRejection ?_ fun e => .diagnose functionsSource_ne hf.reports _
    refine Stage.Leads.bind (P := fun _ => True)
      (.edit (Program.keepsTypes_replaceParameters entry _) ?_)
      fun _ _ => .count _
    intro p _ _ hp
    refine Runs.mono (Program.replaceParameters_refused entry hnamed) (fun _ _ h => h) ?_
    intro e _ he
    rw [hp] at he
    exact he

theorem keepsTypes_forM {f : β → Edit PUnit} (hf : ∀ b, KeepsTypes (f b)) (l : List β) :
    KeepsTypes (l.forM f) := by
  induction l with
  | nil => exact .pure _
  | cons b rest ih => exact (hf b).bind fun _ => ih

theorem setLineComments_leads (f : FunctionDefinition) :
    g.Leads n (setLineComments f) bad :=
  (Stage.Leads.made (keepsTypes_forM (fun _ => Program.keepsTypes_setComment _ _ _) _) fun _ =>
    .forM (fun _ _ => .modify _) _).bind fun _ _ => .count _

theorem markInlined_leads (f : FunctionDefinition) (file : SourceFile) :
    g.Leads n (markInlined f file) bad :=
  (Stage.Leads.made (keepsTypes_forM (fun _ => Program.keepsTypes_setComment _ _ _) _) fun _ =>
    .forM (fun _ _ => .modify _) _).bind fun _ _ => .count _

theorem addLocals_leads (hl : Settles g.document g.isSet g.cuts) (entry : Int)
    (hr : reportingCalls ≤ n) {vs : List (Json × Variable)}
    (ht : ∀ v ∈ vs, v.1.IsName ∧ v.2.type.WellTyped ∧
      3 + nodeNeed (tableNeed g.document) v.2.type.height ≤ n) :
    g.Leads n (addLocals entry vs) bad := by
  induction vs with
  | nil => exact .pure trivial
  | cons v rest ih =>
      have hrest := ih fun w hw => ht w (List.mem_cons_of_mem _ hw)
      obtain ⟨hname, htype, hn⟩ := ht v List.mem_cons_self
      refine (Stage.Leads.inside hn (.variableTypeOf hl htype (Nat.le_refl _))).bind
        fun type _ => ?_
      refine (Stage.Leads.onRejection ?_ (reportFault_leads functionsSource_ne hr)).bind
        fun _ _ => hrest
      refine (Stage.Leads.refused (Program.keepsTypes_addLocal entry _ _ _) fun p => ?_).bind
        fun _ _ => .count _
      exact Program.addLocal_refused entry hname type _

theorem mem_stackLocals {parameters : List Json} {f : FunctionDefinition} {e : Json × Variable}
    (h : e ∈ (stackLocalsBeside parameters f).entries) :
    e.2 ∈ f.locals ∧ ∃ v ∈ f.locals, e.1 = v.common.name := by
  have put {l : Ledger Json Variable}
      (hl : ∀ e ∈ l.entries, e.2 ∈ f.locals ∧ ∃ v ∈ f.locals, e.1 = v.common.name)
      {vs : List Variable} (hv : ∀ v ∈ vs, v ∈ f.locals) :
      ∀ e ∈ (vs.foldl (fun l v => l.put v.common.name v) l).entries,
        e.2 ∈ f.locals ∧ ∃ v ∈ f.locals, e.1 = v.common.name := by
    induction vs generalizing l with
    | nil => exact hl
    | cons v rest ih =>
        have hin : v ∈ f.locals := hv v List.mem_cons_self
        refine ih (fun e he => ?_) fun w hw => hv w (List.mem_cons_of_mem _ hw)
        rcases Ledger.mem_put he with rfl | he | ⟨old, hold, rfl⟩
        · exact ⟨hin, v, hin, rfl⟩
        · exact hl e he
        · exact ⟨hin, (hl old hold).2⟩
  exact put (l := {}) (fun _ h => by cases h) (fun v hv => (List.mem_filter.mp hv).1) e h

theorem FunctionFits.stackLocals {f : FunctionDefinition} (h : FunctionFits g n f)
    {parameters : List Json} {e : Json × Variable}
    (he : e ∈ (stackLocalsBeside parameters f).entries) :
    e.1.IsName ∧ e.2.type.WellTyped ∧
      3 + nodeNeed (tableNeed g.document) e.2.type.height ≤ n := by
  obtain ⟨hin, v, hv, hname⟩ := mem_stackLocals he
  rw [hname]
  exact ⟨(h.typed.locals v hv).1, (h.typed.locals _ hin).2, h.locals _ hin⟩

/-- The names of a well-typed definition's locals are fit to be keys. -/
theorem setLocalsBeside_eq {f : FunctionDefinition} (hf : Document.WellTypedFunction f)
    (parameters : List Json) (entry : Int) : setLocalsBeside parameters entry f =
      addLocals entry (stackLocalsBeside parameters f).entries := by
  have hkeys : (f.locals.any fun v => !v.common.name.isKey) = false := by
    rw [List.any_eq_false]
    intro v hv
    simp [(hf.locals v hv).1.isKey]
  unfold setLocalsBeside
  simp only [hkeys, Bool.false_eq_true, if_false]

theorem setLocals_leads (hl : Settles g.document g.isSet g.cuts) (entry : Int)
    {f : FunctionDefinition} (hf : FunctionFits g n f) : g.Leads n (setLocals entry f) bad := by
  rw [setLocals, setLocalsBeside_eq hf.typed]
  exact addLocals_leads hl entry hf.reports fun e he => hf.stackLocals he

/-- A function with a range is made or reported, and its items as well, unless the slots of the
stack have no size. -/
theorem importFunction_leads (hl : Settles g.document g.isSet g.cuts) {f : FunctionDefinition}
    (hf : FunctionFits g n f) (hc : isComplete f = true) (file : SourceFile) :
    g.Leads n (importFunction f file) g.Unaligned := by
  have hlocals (entry : Int) :
      g.Leads n (do setLocals entry f; return true : ImportM Bool) g.Unaligned :=
    (setLocals_leads hl entry hf).bind fun _ _ => .pure trivial
  have hinlined (entry : Int) : g.Leads n (do
      if (← MonadState.get).markInlined then markInlined f file
      setLocals entry f
      return true) g.Unaligned := by
    refine Stage.Leads.get fun s => ?_
    dsimp only
    split
    · exact (markInlined_leads f file).bind fun _ _ => hlocals entry
    · exact hlocals entry
  obtain ⟨low, high, hbody⟩ := bodyOf_whole hf.typed hc
  simp only [importFunction, hbody, pure_bind]
  refine (findOrMake_leads f hf.typed.name hf.reports _ _).bind fun found _ => ?_
  split
  · exact .pure trivial
  · next entry =>
      refine (nameFunction_leads entry hf.typed.name hf.reports file).bind fun _ _ => ?_
      refine (setReturnType_leads hl entry hf).bind fun _ _ => ?_
      refine (setParameters_leads hl entry hf).bind fun _ _ => Stage.Leads.get fun s => ?_
      split
      · exact (setLineComments_leads f).bind fun _ _ => hinlined entry
      · exact hinlined entry

theorem importFunctionsFrom_leads (hl : Settles g.document g.isSet g.cuts)
    {fs : List (FunctionDefinition × SourceFile)} (hf : ∀ f ∈ fs, FunctionFits g n f.1) :
    g.Leads n (importFunctionsFrom fs) g.Unaligned := by
  induction fs with
  | nil => exact .pure trivial
  | cons f rest ih =>
      have hrest := ih fun h hh => hf h (List.mem_cons_of_mem _ hh)
      obtain ⟨f, file⟩ := f
      refine Stage.Leads.isCancelled.bind fun isCancelled _ => ?_
      split
      · exact .pure trivial
      · split
        · exact (Stage.Leads.count _).bind fun _ _ => hrest
        · next hc =>
            refine (importFunction_leads hl (hf _ List.mem_cons_self) (by simpa using hc)
              file).bind fun made _ => ?_
            split
            · exact (Stage.Leads.count _).bind fun _ _ => hrest
            · exact (Stage.Leads.count _).bind fun _ _ => hrest

theorem functionFits (hd : d.WellTyped) (hg : g.document = d) (hn : stageNeed d ≤ n)
    {f : FunctionDefinition} {file : SourceFile} (hfile : file ∈ d.files)
    (hf : f ∈ file.functions) : FunctionFits g n f := by
  have fits {node : Node}
      (h : node ∈ Node.functionType f.type :: f.locals.map (·.type)) :
      3 + nodeNeed (tableNeed g.document) node.height ≤ n := by
    have hin : node ∈ typeNodes d := by
      refine List.mem_append_right _ (List.mem_flatMap.mpr ⟨file, hfile, ?_⟩)
      exact List.mem_append_left _ (List.mem_flatMap.mpr ⟨f, hf, h⟩)
    have := nodeNeed_le_itemNeed hin
    rw [hg]
    unfold stageNeed at hn
    omega
  constructor
  · exact (hd.files file hfile).functions f hf
  · exact fits List.mem_cons_self
  · exact fun v hv => fits (List.mem_cons_of_mem _ (List.mem_map_of_mem hv))

theorem definitionFits (hd : d.WellTyped) (hg : g.document = d) (hn : stageNeed d ≤ n)
    {x : FunctionDefinition × SourceFile} (hx : x ∈ definitions d) : FunctionFits g n x.1 := by
  obtain ⟨file, hfile, hmem⟩ := List.mem_flatMap.mp hx
  obtain ⟨f, hf, rfl⟩ := List.mem_map.mp hmem
  exact functionFits hd hg hn hfile hf

theorem Stage.Leads.importFunctions (hl : Settles g.document g.isSet g.cuts)
    (hd : g.document.WellTyped) :
    g.Leads (stageNeed g.document) importFunctions g.Unaligned := by
  refine Stage.Leads.prepare.bind fun _ _ => fun s hs hr => Yields.get ?_
  rw [hs.ready.document]
  exact importFunctionsFrom_leads hl (fun _ hx => definitionFits hd rfl (Nat.le_refl _) hx) hs hr

/-! ## Globals -/

theorem placeGlobal_leads (hl : Settles g.document g.isSet g.cuts) {v : Variable}
    (ht : Document.WellTypedVariable v)
    (hn : 3 + nodeNeed (tableNeed g.document) v.type.height ≤ n) :
    g.Leads n (placeGlobal v) bad := by
  have hr : reportingCalls ≤ n := by
    have := reportingCalls_le_tableNeed g.document
    unfold nodeNeed at hn
    omega
  have hin : 1 + nodeNeed (tableNeed g.document) v.type.height ≤ n := by omega
  refine (Stage.Leads.inside hin (.variableTypeOf hl ht.2 (Nat.le_refl _))).bind fun type _ => ?_
  refine (Stage.Leads.onRejection ?_ (reportFault_leads globalsSource_ne hr)).bind fun _ _ => ?_
  · refine (Stage.Leads.made (Program.keepsTypes_typeLength type) fun p =>
      .get (.pure _)).bind fun length _ => ?_
    refine .edit (Program.keepsTypes_createData _ _ _ _) fun p hp hroom _ => ?_
    exact Runs.mono (Program.createData_refused hp hroom _ type length true) (fun _ _ h => h)
      fun _ _ h => .inl h
  · refine (Stage.Leads.onRejection ?_ (reportFault_leads globalsSource_ne hr)).bind
      fun _ _ => .count _
    exact (Stage.Leads.refused (Program.keepsTypes_createLabel _ _ _) fun p =>
      Program.createLabel_refused _ ht.1 true).bind fun _ _ => .pure trivial

theorem importGlobalsFrom_leads (hl : Settles g.document g.isSet g.cuts) {vs : List Variable}
    (ht : ∀ v ∈ vs, Document.WellTypedVariable v ∧
      3 + nodeNeed (tableNeed g.document) v.type.height ≤ n) :
    g.Leads n (importGlobalsFrom vs) bad := by
  induction vs with
  | nil => exact .pure trivial
  | cons v rest ih =>
      have hrest := ih fun w hw => ht w (List.mem_cons_of_mem _ hw)
      obtain ⟨hv, hn⟩ := ht v List.mem_cons_self
      refine Stage.Leads.isCancelled.bind fun isCancelled _ => ?_
      split
      · exact .pure trivial
      · split
        · exact (placeGlobal_leads hl hv hn).bind fun _ _ => hrest
        · exact hrest

theorem globalFits (hd : d.WellTyped) {v : Variable} {file : SourceFile} (hfile : file ∈ d.files)
    (hv : v ∈ file.globals) : Document.WellTypedVariable v ∧
      3 + nodeNeed (tableNeed d) v.type.height ≤ stageNeed d := by
  have hin : v.type ∈ typeNodes d := by
    refine List.mem_append_right _ (List.mem_flatMap.mpr ⟨file, hfile, ?_⟩)
    exact List.mem_append_right _ (List.mem_map_of_mem hv)
  refine ⟨(hd.files file hfile).globals v hv, ?_⟩
  have := nodeNeed_le_itemNeed hin
  unfold stageNeed
  omega

theorem Stage.Leads.importGlobals (hl : Settles g.document g.isSet g.cuts)
    (hd : g.document.WellTyped) : g.Leads (stageNeed g.document) importGlobals bad := by
  refine Stage.Leads.prepare.bind fun _ _ => fun s hs hr => Yields.get ?_
  rw [hs.ready.document]
  refine importGlobalsFrom_leads hl (fun v hv => ?_) hs hr
  obtain ⟨file, hfile, hmem⟩ := List.mem_flatMap.mp hv
  exact globalFits hd hfile hmem

/-! ## Without a limit of calls -/

theorem Ready.holds (hs : Ready d isSet s) :
    Stage.Holds ⟨d, isSet, C, s.program.convention⟩ s :=
  ⟨hs, rfl⟩

/-- The stage of functions leads to a later session, whatever it ends with. -/
theorem importFunctions_leads (hl : Settles d isSet C) (hs : Ready d isSet s)
    (hr : s.room = none) :
    Yields { cuts := C } importFunctions s (fun _ _ => True) AnyFault := by
  have hd : d.WellTyped := hs.document ▸ hs.sound.typed
  have hleads := Stage.Leads.importFunctions (g := ⟨d, isSet, C, s.program.convention⟩) hl hd
  exact (hleads hs.holds (by rw [hr]; rfl)).mono (fun _ _ _ _ => trivial) fun _ _ _ _ => trivial

/-- So does the stage of globals. -/
theorem importGlobals_leads (hl : Settles d isSet C) (hs : Ready d isSet s)
    (hr : s.room = none) :
    Yields { cuts := C } importGlobals s (fun _ _ => True) AnyFault := by
  have hd : d.WellTyped := hs.document ▸ hs.sound.typed
  have hleads : Stage.Leads ⟨d, isSet, C, s.program.convention⟩ _ _ fun _ => True :=
    Stage.Leads.importGlobals hl hd
  exact (hleads hs.holds (by rw [hr]; rfl)).mono (fun _ _ _ _ => trivial) fun _ _ _ _ => trivial

end StabsImport.Import

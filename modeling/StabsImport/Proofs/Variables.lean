import StabsImport.Proofs.Accounts
import StabsImport.Proofs.CodeAndData
import StabsImport.Proofs.Lockstep

/-!
# Parameters and locals

The parameters of a function are replaced as a whole, and its locals are added one by one; each
drops what is in its way of the other kind or is refused for it. So they never collide, through any
calls and whole imports, and where a parameter is stored goes by how long the types were when the
last call for parameters went through. Main statement: `makeAll_tidy`.
-/

namespace StabsImport

open Document (FunctionDefinition SourceFile)

/-! ## Calls for parameters -/

/-- A call for parameters of a function, and the program it is made in. -/
structure Replacement where
  program : Program
  entry : Int
  declared : List (Json × TypeId)

namespace Replacement

/-- There is such a function, and the call was not refused. -/
def Succeeds (c : Replacement) : Prop :=
  c.program.functions.contains c.entry = true ∧
    (Program.replaceParameters c.entry c.declared c.program).1 = .ok ()

/-- The parameters are those declared, each stored by how long their types were then. -/
structure Gives (c : Replacement) (parameters : List Parameter) : Prop where
  succeeds : c.Succeeds
  declared : parameters.map (fun q => (Json.text q.name, q.type)) = c.declared
  stored : c.program.convention.assignStorage
    (parameters.map fun q => c.program.arena.length q.type) = .ok (parameters.map (·.storage))

/-- No call for parameters of the function at the entry point went through. -/
def NoneFor (calls : List Replacement) (entry : Int) : Prop :=
  ∀ c ∈ calls, c.entry = entry → ¬ c.Succeeds

/-- The parameters of the function are of the last of the calls that went through, or none if none
did. -/
def Given (calls : List Replacement) (entry : Int) (parameters : List Parameter) : Prop :=
  parameters = [] ∧ NoneFor calls entry ∨ ∃ before c after, calls = before ++ c :: after ∧
    c.entry = entry ∧ c.Gives parameters ∧ NoneFor after entry

variable {calls : List Replacement} {c : Replacement} {entry : Int} {parameters : List Parameter}

theorem NoneFor.concat (h : NoneFor calls entry) (hc : c.entry = entry → ¬ c.Succeeds) :
    NoneFor (calls ++ [c]) entry :=
  List.forall_mem_append.mpr ⟨h, List.forall_mem_singleton.mpr hc⟩

/-- Another call for this function was refused, if there was one. -/
theorem Given.concat (h : Given calls entry parameters) (hc : c.entry = entry → ¬ c.Succeeds) :
    Given (calls ++ [c]) entry parameters := by
  rcases h with ⟨hempty, hnone⟩ | ⟨before, c', after, hcalls, hentry, gives, hnone⟩
  · exact .inl ⟨hempty, hnone.concat hc⟩
  · exact .inr ⟨before, c', after ++ [c], by rw [hcalls]; simp, hentry, gives, hnone.concat hc⟩

theorem Gives.given (h : c.Gives parameters) (calls : List Replacement) :
    Given (calls ++ [c]) c.entry parameters :=
  .inr ⟨calls, c, [], rfl, rfl, h, nofun⟩

end Replacement

open Replacement (Given NoneFor)

/-! ## What is declared, and where it is stored -/

namespace Program

variable {function : String} {seen : List String} {declared : List (Json × TypeId)}
  {named : List Parameter} {storage : List String}

/-- All have names with ink in them, and none the name of one before it. -/
theorem namedParameters_names (h : namedParameters function seen declared = .ok named) :
    (∀ q ∈ named, Text.isBlankText q.name = false ∧ q.name ∉ seen) ∧
      (named.map (·.name)).Nodup := by
  induction declared generalizing seen named with
  | nil =>
      cases h
      exact ⟨nofun, List.nodup_nil⟩
  | cons q rest ih =>
      obtain ⟨name, type⟩ := q
      simp only [namedParameters, bind, Except.bind] at h
      cases hname : inkedName (.unnamedParameter function) name with
      | error e => simp [hname] at h
      | ok given =>
          simp only [hname] at h
          split at h
          · cases h
          next hfresh =>
          cases hrest : namedParameters function (given :: seen) rest with
          | error e => simp [hrest] at h
          | ok later =>
              simp only [hrest] at h
              cases h
              obtain ⟨names, distinct⟩ := ih hrest
              have inked : Text.isBlankText given = false := by
                rw [text_of_inkedName hname, inkedName] at hname
                split at hname
                · cases hname
                · next hblank => simpa using hblank
              refine ⟨List.forall_mem_cons.mpr ⟨⟨inked, by simpa using hfresh⟩, fun q hq => ?_⟩, ?_⟩
              · exact (names q hq).imp_right fun h hmem => h (List.mem_cons_of_mem _ hmem)
              · refine List.nodup_cons.mpr ⟨fun hmem => ?_, distinct⟩
                obtain ⟨q, hq, hgiven⟩ := List.mem_map.mp hmem
                exact (names q hq).2 (hgiven ▸ List.mem_cons_self)

/-- Each argument has a place. -/
theorem length_assignFrom {alignment : Int} {lengths : List Int} {registers : List String}
    {offset : Int}
    (h : CallingConvention.assignFrom alignment registers offset lengths = .ok storage) :
    storage.length = lengths.length := by
  have map {r : Except Fault (List String)} {slot : String} {n : Nat} {l : List String}
      (later : ∀ rest, r = .ok rest → rest.length = n) (hr : r.map (slot :: ·) = .ok l) :
      l.length = n + 1 := by
    cases r with
    | error e => cases hr
    | ok rest =>
        cases hr
        rw [List.length_cons, later rest rfl]
  induction lengths generalizing registers offset storage with
  | nil =>
      rw [CallingConvention.assignFrom] at h
      cases h
      rfl
  | cons length rest ih =>
      cases registers with
      | nil =>
          simp only [CallingConvention.assignFrom] at h
          split at h
          · cases h
          · exact map (fun _ => ih) h
      | cons register registers =>
          simp only [CallingConvention.assignFrom] at h
          split at h
          · exact map (fun _ => ih) h
          · split at h
            · cases h
            · exact map (fun _ => ih) h

section

variable (h : storage.length = named.length)

include h

theorem length_placeParameters : (placeParameters named storage).length = named.length := by
  rw [placeParameters, List.length_mapIdx, List.length_zip, h, Nat.min_self]

theorem map_placeParameters {α : Type} (f : String → TypeId → α) :
    (placeParameters named storage).map (fun q => f q.name q.type) =
      named.map fun q => f q.name q.type := by
  refine List.ext_getElem (by simp [length_placeParameters h]) fun i _ _ => ?_
  simp [placeParameters]

theorem ordinal_placeParameters :
    (placeParameters named storage).map (·.ordinal) = List.range named.length := by
  refine List.ext_getElem (by simp [length_placeParameters h]) fun i _ _ => ?_
  simp [placeParameters]

theorem storage_placeParameters : (placeParameters named storage).map (·.storage) = storage := by
  refine List.ext_getElem (by simp [length_placeParameters h, h]) fun i _ _ => ?_
  simp [placeParameters]

end

end Program

/-! ## Tidy functions -/

open Program (InOrder)

/-- The parameters and the locals of a function after these calls for parameters. -/
structure Function.Tidy (calls : List Replacement) (f : Function) : Prop where
  inked : ∀ q ∈ f.parameters, Text.isBlankText q.name = false
  distinct : (f.parameters.map (·.name)).Nodup
  numbered : f.parameters.map (·.ordinal) = List.range f.parameters.length
  given : Given calls f.entry.value f.parameters
  locals : (f.locals.map (·.name)).Nodup
  inOrder : InOrder f.locals
  apart : ∀ v ∈ f.locals, ∀ q ∈ f.parameters, v.name ≠ q.name

namespace Function.Tidy

variable {calls : List Replacement} {c : Replacement} {f g : Function}

theorem blank (parameters : f.parameters = []) (locals : f.locals = [])
    (new : NoneFor calls f.entry.value) : f.Tidy calls where
  inked := by rw [parameters]; nofun
  distinct := by rw [parameters]; exact List.nodup_nil
  numbered := by rw [parameters]; rfl
  given := .inl ⟨parameters, new⟩
  locals := by rw [locals]; exact List.nodup_nil
  inOrder := by rw [locals]; exact List.Pairwise.nil
  apart := by rw [locals]; nofun

theorem congr (h : f.Tidy calls) (entry : g.entry = f.entry)
    (parameters : g.parameters = f.parameters) (locals : g.locals = f.locals) : g.Tidy calls where
  inked := by rw [parameters]; exact h.inked
  distinct := by rw [parameters]; exact h.distinct
  numbered := by rw [parameters]; exact h.numbered
  given := by rw [entry, parameters]; exact h.given
  locals := by rw [locals]; exact h.locals
  inOrder := by rw [locals]; exact h.inOrder
  apart := by rw [locals, parameters]; exact h.apart

theorem concat (h : f.Tidy calls) (hc : c.entry = f.entry.value → ¬ c.Succeeds) :
    f.Tidy (calls ++ [c]) :=
  { h with given := h.given.concat hc }

/-- A local is added that is not named like a parameter. -/
theorem putLocal (h : f.Tidy calls) {v : LocalVariable}
    (free : ∀ q ∈ f.parameters, v.name ≠ q.name) :
    Function.Tidy calls { f with locals := Program.putLocal f.locals v } :=
  { h with
    locals := Program.nodup_names_putLocal h.locals v
    inOrder := h.inOrder.putLocal v
    apart := fun w hw => by
      rcases Program.mem_insertLocal.mp hw with rfl | hw
      · exact free
      · exact h.apart w (List.mem_filter.mp hw).1 }

/-- A call for parameters goes through. -/
theorem withParameters (h : f.Tidy calls) (hentry : c.entry = f.entry.value) (hc : c.Succeeds)
    {function : String} {named : List Parameter} {storage : List String}
    (hnamed : Program.namedParameters function [] c.declared = .ok named)
    (hstorage : c.program.convention.assignStorage
      (named.map fun q => c.program.arena.length q.type) = .ok storage) :
    (f.withParameters named storage).Tidy (calls ++ [c]) := by
  have length : storage.length = named.length := by
    rw [Program.length_assignFrom hstorage, List.length_map]
  obtain ⟨names, distinct⟩ := Program.namedParameters_names hnamed
  have gives : c.Gives (Program.placeParameters named storage) := by
    refine ⟨hc, ?_, ?_⟩
    · rw [Program.map_placeParameters length fun name type => (Json.text name, type),
        Program.namedParameters_map hnamed]
    · rw [Program.map_placeParameters length fun _ type => c.program.arena.length type,
        Program.storage_placeParameters length, hstorage]
  constructor
  · intro q hq
    obtain ⟨r, hr, hname, -⟩ := Program.exists_of_mem_placeParameters hq
    rw [hname]
    exact (names r hr).1
  · show ((Program.placeParameters named storage).map (·.name)).Nodup
    rwa [Program.map_placeParameters length fun name _ => name]
  · show (Program.placeParameters named storage).map (·.ordinal) = List.range _
    rw [Program.ordinal_placeParameters length, ← Program.length_placeParameters length]
    rfl
  · exact hentry ▸ gives.given calls
  · exact h.locals.sublist (List.filter_sublist.map _)
  · exact h.inOrder.sublist List.filter_sublist
  · intro v hv q hq hname
    obtain ⟨r, hr, hq, -⟩ := Program.exists_of_mem_placeParameters hq
    have kept := (List.mem_filter.mp hv).2
    have taken : v.name ∈ named.map (·.name) := List.mem_map.mpr ⟨r, hr, (hname.trans hq).symm⟩
    simp [taken] at kept

end Function.Tidy

namespace Program

variable {calls : List Replacement} {p q : Program} {f : Function} {entry : Int}

/-- Every function of the program is tidy, and stands under its entry point; none is taken away. -/
structure Tidy (calls : List Replacement) (p : Program) : Prop where
  keyed : ∀ {entry f}, p.function? entry = some f → f.entry.value = entry
  each : ∀ {entry f}, p.function? entry = some f → f.Tidy calls
  kept : ∀ c ∈ calls, c.Succeeds → p.functions.contains c.entry = true

namespace Tidy

theorem congr (h : p.Tidy calls) (functions : q.functions = p.functions) : q.Tidy calls := by
  have same (entry : Int) : q.function? entry = p.function? entry := by
    rw [function?, functions, function?]
  exact ⟨fun hf => h.keyed (same _ ▸ hf), fun hf => h.each (same _ ▸ hf), functions ▸ h.kept⟩

theorem noneFor (h : p.Tidy calls) (free : p.functions.contains entry = false) :
    NoneFor calls entry := by
  intro c hc hentry succeeds
  rw [← hentry, h.kept c hc succeeds] at free
  cases free

theorem put (h : p.Tidy calls) (hf : f.Tidy calls) :
    Tidy calls { p with functions := p.functions.put f.entry.value f } := by
  have found {entry : Int} {g : Function}
      (hg : (p.functions.put f.entry.value f).get? entry = some g) :
      g = f ∧ f.entry.value = entry ∨ p.function? entry = some g := by
    rw [Ledger.get?_put] at hg
    split at hg
    · next hsame => exact .inl ⟨(Option.some.inj hg).symm, of_decide_eq_true hsame⟩
    · exact .inr hg
  constructor
  · intro entry g hg
    rcases found hg with ⟨rfl, hentry⟩ | hg
    · exact hentry
    · exact h.keyed hg
  · intro entry g hg
    rcases found hg with ⟨rfl, -⟩ | hg
    · exact hf
    · exact h.each hg
  · intro c hc succeeds
    rw [Ledger.contains, Ledger.get?_put]
    split
    · rfl
    · exact h.kept c hc succeeds

theorem update (h : p.Tidy calls) (entry : Int) {edit : Function → Function}
    (same : ∀ f, (edit f).entry = f.entry) {calls' : List Replacement}
    (here : ∀ f, p.function? entry = some f → (edit f).Tidy calls')
    (others : ∀ f : Function, f.entry.value ≠ entry → f.Tidy calls → f.Tidy calls')
    (kept : ∀ c ∈ calls', c.Succeeds → p.functions.contains c.entry = true) :
    Tidy calls' { p with functions := p.functions.update entry edit } := by
  have found {entry' : Int} {g : Function}
      (hg : (p.functions.update entry edit).get? entry' = some g) :
      (∃ f, p.function? entry = some f ∧ g = edit f ∧ entry = entry') ∨
        entry ≠ entry' ∧ p.function? entry' = some g := by
    rw [Ledger.get?_update] at hg
    split at hg
    · next hsame =>
        obtain rfl : entry = entry' := of_decide_eq_true hsame
        obtain ⟨f, hf, rfl⟩ := Option.map_eq_some_iff.mp hg
        exact .inl ⟨f, hf, rfl, rfl⟩
    · next hother => exact .inr ⟨fun hsame => hother (decide_eq_true hsame), hg⟩
  constructor
  · intro entry' g hg
    rcases found hg with ⟨f, hf, rfl, rfl⟩ | ⟨-, hg⟩
    · rw [same]
      exact h.keyed hf
    · exact h.keyed hg
  · intro entry' g hg
    rcases found hg with ⟨f, hf, rfl, -⟩ | ⟨hne, hg⟩
    · exact here f hf
    · exact others g (fun heq => hne (heq.symm.trans (h.keyed hg))) (h.each hg)
  · intro c hc succeeds
    have here := kept c hc succeeds
    rw [Ledger.contains] at here
    rw [Ledger.contains, Ledger.get?_update]
    split
    · rw [Option.isSome_map]
      exact here
    · exact here

end Tidy

/-- Through an edit, other than a call for parameters, all functions stay tidy. -/
def KeepsTidy (p q : Program) : Prop := ∀ calls, p.Tidy calls → q.Tidy calls

instance : Structural KeepsTidy where
  trans h h' _ hp := h' _ (h _ hp)
  aside functions _ _ hp := hp.congr functions
  retold p entry f hf calls hp := by
    have parts (g : Function) : (f g).entry = g.entry ∧ (f g).parameters = g.parameters ∧
        (f g).locals = g.locals := by
      obtain ⟨_, _, _, h⟩ := hf g
      rw [h]
      exact ⟨rfl, rfl, rfl⟩
    refine hp.update entry (fun g => (parts g).1) (fun g hg => ?_) (fun _ _ h => h) hp.kept
    exact (hp.each hg).congr (parts g).1 (parts g).2.1 (parts g).2.2

theorem createFunction_keepsTidy (name : Json) (entry : Whole) (body : Option (Whole × Bound))
    (source : SourceKind) : MovesWithin KeepsTidy (createFunction name entry body source) := by
  intro p
  refine runs_createFunction (fun _ => Untyped.refl p) fun place => ?_
  generalize body.getD (entry, .whole entry) = range at place
  have placed : KeepsTidy p (p.placeFunction entry range) := by
    refine Structural.trans (fun _ hp => hp.put (f := newFunction entry range) ?_)
      (Structural.setSymbols _ entry _)
    exact .blank rfl rfl (hp.noneFor place.free)
  split
  · exact Runs.mono (Structural.renameFunction (E := KeepsTidy) _ _ _ _)
      (fun _ _ h => Structural.trans placed h) fun _ _ h => Structural.trans placed h
  · exact placed

theorem addLocal_keepsTidy (entry : Int) (name : Json) (type : TypeId) (stackOffset : Int) :
    MovesWithin KeepsTidy (addLocal entry name type stackOffset) := by
  refine .get fun p => ?_
  have same : KeepsTidy p p := Untyped.refl p
  split
  · exact same
  next f hf =>
  rw [Runs.bind_iff, runs_ofResult]
  split
  · next given _ =>
      rw [Runs.bind_iff, runs_ofExcept]
      split
      · next hcheck =>
          have free : ∀ q ∈ f.parameters, given ≠ q.name := by
            intro q hq hname
            rw [checkLocal, if_pos (List.any_eq_true.mpr ⟨q, hq, by simp [hname]⟩)] at hcheck
            cases hcheck
          dsimp only
          rw [insertLocal_kept]
          exact fun calls hp => hp.put ((hp.each hf).putLocal free)
      · exact same
  · exact same

/-- Data is put beside functions. -/
theorem createData_keepsTidy (address : Int) (type : TypeId) (length : Int) (clear : Bool) :
    MovesWithin KeepsTidy (createData address type length clear) := by
  intro p
  have same : KeepsTidy p p := Untyped.refl p
  rw [createData, Runs.bind_iff, Runs.get_iff]
  dsimp only
  rw [Runs.ite_iff]
  split
  · rw [Runs.bind_iff, typeName, runs_view]
    split <;> exact same
  rw [Runs.ite_iff]
  split
  · exact same
  split
  · exact same
  split
  · exact same
  · exact fun _ hp => hp.congr rfl

/-- A call for parameters leaves all functions tidy, whether it is refused or not. -/
theorem replaceParameters_tidy (h : p.Tidy calls) (entry : Int)
    (declared : List (Json × TypeId)) :
    Runs (replaceParameters entry declared) p
      (fun _ q => q.Tidy (calls ++ [⟨p, entry, declared⟩]))
      fun _ q => q.Tidy (calls ++ [⟨p, entry, declared⟩]) := by
  let c : Replacement := ⟨p, entry, declared⟩
  refine ((Runs.self _ p).and (runs_replaceParameters p entry declared)).mono
    (fun _ q hq => ?_) fun e q hq => ?_
  · obtain ⟨hrun, named, storage, hnamed, hstorage, rfl⟩ := hq
    refine h.update entry (fun _ => by rfl) (fun f hf => ?_) (fun f hne hf => ?_) ?_
    · have here : p.functions.contains entry = true := by
        rw [Ledger.contains, show p.functions.get? entry = some f from hf]
        rfl
      have went : (replaceParameters entry declared p).1 = .ok () := by rw [hrun]
      have succeeds : c.Succeeds := ⟨here, went⟩
      exact (h.each hf).withParameters (h.keyed hf).symm succeeds hnamed hstorage
    · exact hf.concat fun heq => absurd heq.symm hne
    · exact List.forall_mem_append.mpr ⟨h.kept, List.forall_mem_singleton.mpr And.left⟩
  · obtain ⟨hrun, rfl, -⟩ := hq
    have refused : ¬ c.Succeeds := by
      rintro ⟨-, hok⟩
      rw [show Program.replaceParameters c.entry c.declared c.program = _ from hrun] at hok
      cases hok
    refine ⟨h.keyed, fun hf => (h.each hf).concat fun _ => refused, ?_⟩
    exact List.forall_mem_append.mpr ⟨h.kept, List.forall_mem_singleton.mpr (absurd · refused)⟩

end Program

namespace Import

open Program (KeepsTidy Structural)

variable {calls : List Replacement} {s : Session} {d : FunctionDefinition} {file : SourceFile}

/-! ## One definition -/

/-- Asks for the parameters of a definition. -/
def putParameters (entry : Int) (d : FunctionDefinition) (parameters : List (Json × TypeId)) :
    ImportM Unit :=
  onRejection
    (do
      edit (Program.replaceParameters entry parameters)
      count fun t => { t with parameters := t.parameters + parameters.length })
    fun e => diagnose functionsSource
      s!"Failed to setup parameters for {d.common.name.plain}: {e.message}"

/-- What is done for a definition before it asks for its parameters: where its function is, and the
parameters if there are any. -/
def leadUp (d : FunctionDefinition) (file : SourceFile) :
    ImportM (Option (Int × Option (List (Json × TypeId)))) := do
  let (low, last) ← (match bodyOf d with
    | .ok body => pure body
    | .error e => throw e : ImportM (Bound × Bound))
  match ← findOrMake d low last with
  | none => return none
  | some entry =>
      nameFunction entry d file
      setReturnType entry d
      let declared := d.type.parameters.getD []
      if declared.isEmpty then return some (entry, none)
      return some (entry, some (← parametersOf declared))

/-- What is done for a definition from then on. -/
def carryOn (d : FunctionDefinition) (file : SourceFile) :
    Option (Int × Option (List (Json × TypeId))) → ImportM Bool
  | none => return false
  | some (entry, parameters) => do
      parameters.forM (putParameters entry d)
      annotateLines d
      annotateInlined d file
      setLocals entry d
      return true

theorem importFunction_leadUp (d : FunctionDefinition) (file : SourceFile) :
    importFunction d file = leadUp d file >>= carryOn d file := by
  rw [importFunction_eq, leadUp, bind_assoc]
  refine bind_congr fun range => ?_
  rw [bind_assoc]
  refine bind_congr fun found => ?_
  cases found with
  | none => rfl
  | some entry =>
      simp only [bind_assoc]
      refine bind_congr fun _ => bind_congr fun _ => ?_
      rw [Import.setParameters]
      cases (d.type.parameters.getD []).isEmpty with
      | true => rfl
      | false => simp only [Bool.false_eq_true, if_false, bind_assoc, pure_bind]; rfl

theorem namingEdits_keepsTidy (d : FunctionDefinition) (file : SourceFile) :
    NamingEdits KeepsTidy d file where
  make _ := by
    split
    · exact Program.createFunction_keepsTidy _ _ _ _
    · exact Program.createFunction_keepsTidy _ _ _ _
  drop _ := .get fun p => Structural.dropStale _ _ _ p
  rename _ := Structural.renameFunction _ _ _
  comment _ := Structural.setFunctionComment _ _
  returns _ _ := Structural.setReturnType _ _

theorem detailEdits_keepsTidy (d : FunctionDefinition) (file : SourceFile) :
    DetailEdits KeepsTidy d file where
  lines := .forM fun _ _ => Structural.setComment _ _ _
  inlined := .forM fun _ _ => Structural.setComment _ _ _
  locals _ _ _ _ := Program.addLocal_keepsTidy _ _ _ _

/-- The functions of the program are tidy after these calls for parameters. -/
abbrev TidyAfter (calls : List Replacement) (s : Session) : Prop := s.program.Tidy calls

/-- What keeps functions tidy does so in a session. -/
theorem Preserves.tidyAfter {α : Type} {m : ImportM α} (h : Preserves (Programs KeepsTidy) m)
    (hs : TidyAfter calls s) :
    Runs m s (fun _ t => TidyAfter calls t) fun _ t => TidyAfter calls t :=
  Runs.mono (h s) (fun _ _ ht => ht _ hs) fun _ _ ht => ht _ hs

theorem leadUp_tidy (d : FunctionDefinition) (file : SourceFile) (hs : TidyAfter calls s) :
    Runs (leadUp d file) s
      (fun r t => TidyAfter calls t ∧ ∀ x ∈ r, StartsAt d x.1) fun _ t => TidyAfter calls t := by
  have staged : Staged KeepsTidy (Programs KeepsTidy) := untyped_staged
  have edits := namingEdits_keepsTidy d file
  rw [leadUp, Runs.bind_iff]
  cases hbody : bodyOf d with
  | error e => exact hs
  | ok range =>
  refine (Runs.bind_iff _ _).mpr ?_
  refine Runs.mono (staged.findOrMake edits hbody s) (fun found t ht => ?_) fun _ _ ht => ht _ hs
  obtain ⟨ht, starts⟩ := ht
  cases found with
  | none => exact ⟨ht _ hs, nofun⟩
  | some entry =>
  have here := starts entry rfl
  rw [Runs.bind_iff]
  refine Runs.mono ((staged.nameFunction edits here).tidyAfter (ht _ hs)) (fun _ u hu => ?_)
    fun _ _ h => h
  rw [Runs.bind_iff]
  refine Runs.mono ((staged.setReturnType edits here).tidyAfter hu) (fun _ v hv => ?_)
    fun _ _ h => h
  dsimp only
  split
  · exact ⟨hv, fun x hx => Option.some.inj hx ▸ here⟩
  · rw [Runs.bind_iff]
    exact Runs.mono ((staged.parametersOf _).tidyAfter hv)
      (fun _ _ hw => ⟨hw, fun x hx => Option.some.inj hx ▸ here⟩) fun _ _ h => h

/-- The call for parameters that is made for a definition, if it gets that far. -/
def replacement? (x : FunctionDefinition × SourceFile) (s : Session) : Option Replacement :=
  match leadUp x.1 x.2 s with
  | (.ok (some (entry, some declared)), t) => some ⟨t.program, entry, declared⟩
  | _ => none

theorem putParameters_tidy (entry : Int) (d : FunctionDefinition)
    (declared : List (Json × TypeId)) (hs : TidyAfter calls s) :
    Runs (putParameters entry d declared) s
      (fun _ t => TidyAfter (calls ++ [⟨s.program, entry, declared⟩]) t)
      fun _ t => TidyAfter (calls ++ [⟨s.program, entry, declared⟩]) t := by
  have staged : Staged KeepsTidy (Programs KeepsTidy) := untyped_staged
  rw [putParameters, runs_onRejection, Runs.bind_iff, runs_edit]
  have report (e : Fault) : Preserves (Programs KeepsTidy) (diagnose functionsSource
      s!"Failed to setup parameters for {d.common.name.plain}: {e.message}") := .diagnose _ _
  refine Runs.mono (Program.replaceParameters_tidy hs entry declared) (fun _ q hq => ?_)
    fun e q hq => ?_
  · refine Runs.mono ((staged.count _).tidyAfter hq) (fun _ _ h => h) fun e t ht => ?_
    split
    · exact (report e).tidyAfter ht
    · exact ht
  · split
    · exact (report e).tidyAfter hq
    · exact hq

theorem carryOn_tidy {entry : Int} (here : StartsAt d entry)
    (parameters : Option (List (Json × TypeId))) (hs : TidyAfter calls s) :
    Runs (carryOn d file (some (entry, parameters))) s
      (fun _ t => TidyAfter (calls ++ (parameters.map (⟨s.program, entry, ·⟩)).toList) t)
      fun _ t => TidyAfter (calls ++ (parameters.map (⟨s.program, entry, ·⟩)).toList) t := by
  have staged : Staged KeepsTidy (Programs KeepsTidy) := untyped_staged
  have edits := detailEdits_keepsTidy d file
  have details : Preserves (Programs KeepsTidy) (do
      annotateLines d
      annotateInlined d file
      setLocals entry d
      return true) := by
    have lines : Preserves (Programs KeepsTidy) (annotateLines d) := .get fun _ => by
      split
      · exact (staged.edit edits.lines).bind fun _ => staged.count _
      · exact .pure _
    have inlined : Preserves (Programs KeepsTidy) (annotateInlined d file) := .get fun _ => by
      split
      · exact (staged.edit edits.inlined).bind fun _ => staged.count _
      · exact .pure _
    exact lines.bind fun _ => inlined.bind fun _ => (staged.setLocals edits here).bind fun _ =>
      .pure _
  rw [carryOn, Runs.bind_iff]
  cases parameters with
  | none =>
      rw [Option.map_none, Option.toList_none, List.append_nil]
      exact details.tidyAfter hs
  | some declared =>
      exact Runs.mono (putParameters_tidy entry d declared hs) (fun _ _ h => details.tidyAfter h)
        fun _ _ h => h

theorem importFunction_tidy (x : FunctionDefinition × SourceFile) (hs : TidyAfter calls s) :
    Runs (importFunction x.1 x.2) s
      (fun _ t => TidyAfter (calls ++ (replacement? x s).toList) t)
      fun _ t => TidyAfter (calls ++ (replacement? x s).toList) t := by
  rw [importFunction_leadUp, Runs.bind_iff]
  refine Runs.mono ((Runs.self _ s).and (leadUp_tidy x.1 x.2 hs)) (fun r t h => ?_)
    fun e t h => ?_
  · obtain ⟨hrun, ht, starts⟩ := h
    rw [replacement?, hrun]
    match r with
    | none =>
        rw [Option.toList_none, List.append_nil]
        exact ht
    | some (entry, none) => exact carryOn_tidy (starts _ rfl) none ht
    | some (entry, some declared) => exact carryOn_tidy (starts _ rfl) (some declared) ht
  · rw [replacement?, h.1, Option.toList_none, List.append_nil]
    exact h.2

/-! ## The stages -/

/-- The calls for parameters that are made for a definition if it is taken up. -/
def replacementsFor (x : FunctionDefinition × SourceFile) (s : Session) : List Replacement :=
  if isComplete x.1 then (replacement? x s).toList else []

/-- The calls for parameters that are made for definitions, until the work is cancelled or ends with
a fault. -/
def replacementsFrom : List (FunctionDefinition × SourceFile) → Session → List Replacement
  | [], _ => []
  | x :: rest, s =>
      match isCancelled s with
      | (.ok false, t) =>
          replacementsFor x t ++
            match takeUpFunction x t with
            | (.ok _, u) => replacementsFrom rest u
            | (.error _, _) => []
      | _ => []

theorem takeUpFunction_tidy (x : FunctionDefinition × SourceFile) (hs : TidyAfter calls s) :
    Runs (takeUpFunction x) s
      (fun _ t => TidyAfter (calls ++ replacementsFor x s) t)
      fun _ t => TidyAfter (calls ++ replacementsFor x s) t := by
  have staged : Staged KeepsTidy (Programs KeepsTidy) := untyped_staged
  have counted (made : Bool) : Preserves (Programs KeepsTidy)
      (if made then count fun t => { t with functions := t.functions + 1 } else skipped) := by
    split
    · exact staged.count _
    · exact staged.count _
  rw [takeUpFunction, replacementsFor]
  split
  · rw [Runs.bind_iff]
    exact Runs.mono (importFunction_tidy x hs) (fun made _ h => (counted made).tidyAfter h)
      fun _ _ h => h
  · rw [List.append_nil]
    exact (counted false).tidyAfter hs

theorem importFunctionsFrom_tidy (l : List (FunctionDefinition × SourceFile))
    (hs : TidyAfter calls s) :
    Runs (importFunctionsFrom l) s
      (fun _ t => TidyAfter (calls ++ replacementsFrom l s) t)
      fun _ t => TidyAfter (calls ++ replacementsFrom l s) t := by
  have staged : Staged KeepsTidy (Programs KeepsTidy) := untyped_staged
  induction l generalizing s calls with
  | nil =>
      rw [replacementsFrom, List.append_nil]
      exact hs
  | cons x rest ih =>
      rw [importFunctionsFrom_step, Runs.bind_iff]
      refine Runs.mono ((Runs.self _ s).and (staged.checked.tidyAfter hs)) (fun b t h => ?_)
        fun e t h => ?_
      · obtain ⟨hrun, ht⟩ := h
        rw [replacementsFrom, hrun]
        cases b with
        | true =>
            rw [List.append_nil]
            exact ht
        | false =>
            show Runs (takeUpFunction x >>= fun _ => importFunctionsFrom rest) t _ _
            rw [Runs.bind_iff]
            refine Runs.mono ((Runs.self _ t).and (takeUpFunction_tidy x ht)) (fun _ u h => ?_)
              fun e u h => ?_
            · dsimp only
              rw [h.1, ← List.append_assoc]
              exact ih h.2
            · dsimp only
              rw [h.1, List.append_nil]
              exact h.2
      · rw [replacementsFrom, h.1, List.append_nil]
        exact h.2

/-- The calls for parameters that the stage of functions makes. -/
def stageReplacements (s : Session) : List Replacement :=
  match prepare s with
  | (.ok _, t) => replacementsFrom (definitions t.document) t
  | (.error _, _) => []

theorem importFunctions_tidy (hs : TidyAfter calls s) :
    Runs importFunctions s
      (fun _ t => TidyAfter (calls ++ stageReplacements s) t)
      fun _ t => TidyAfter (calls ++ stageReplacements s) t := by
  have staged : Staged KeepsTidy (Programs KeepsTidy) := untyped_staged
  rw [importFunctions, Runs.bind_iff]
  refine Runs.mono ((Runs.self _ s).and (staged.prepared.tidyAfter hs)) (fun _ t h => ?_)
    fun e t h => ?_
  · rw [stageReplacements, h.1]
    exact importFunctionsFrom_tidy _ h.2
  · rw [stageReplacements, h.1, List.append_nil]
    exact h.2

theorem importGlobals_keepsTidy : Preserves (Programs KeepsTidy) importGlobals :=
  untyped_staged.importGlobals fun _ => untyped_staged.placeGlobal
    { data := fun _ _ => Program.createData_keepsTidy _ _ _ _
      label := Structural.createLabel _ _ _ }

/-! ## Whole imports -/

/-- What an import does up to its stage of functions; answers its options. -/
def leadIn (room : Room) (d : Document) : RunM Options := do
  if (← get).phase = .idle then
    enterPhase .preparingInput
    enterPhase .parsing
  takeUp (room.inside 3) d
  let o := (← get).options
  runPhase .importingTypes o.importTypes importTypes
  enterPhase .importingFunctions
  return o

theorem importWithin_leadIn (room : Room) (d : Document) :
    importWithin room d = (do
      let o ← leadIn room d
      runStage o.importFunctions importFunctions
      runPhase .importingGlobals o.importGlobals importGlobals
      enterPhase .done) := by
  simp only [importWithin, leadIn, runPhase, bind_assoc]
  refine bind_congr fun i => ?_
  split <;> simp only [bind_assoc, pure_bind]

/-- The calls for parameters that an import makes. -/
def importReplacements (d : Document) (i : Importer) : List Replacement :=
  match leadIn i.host.room d i with
  | (.ok o, j) => if o.importFunctions then stageReplacements j.session else []
  | (.error _, _) => []

variable {i : Importer}

theorem enterPhase_tidy (target : Phase) (hi : TidyAfter calls i.session) :
    Runs (enterPhase target) i (fun _ j => TidyAfter calls j.session)
      fun _ j => TidyAfter calls j.session :=
  Runs.mono (KeepsSession.enterPhase target i) (fun _ _ hj => hi.congr (by rw [hj.program]))
    fun _ _ hj => hi.congr (by rw [hj.program])

theorem leadIn_tidy (room : Room) (d : Document) (hi : TidyAfter calls i.session) :
    Runs (leadIn room d) i (fun _ j => TidyAfter calls j.session)
      fun _ j => TidyAfter calls j.session := by
  have staged : Staged KeepsTidy (Programs KeepsTidy) := untyped_staged
  have rest {i : Importer} (hi : TidyAfter calls i.session) : Runs (do
      takeUp (room.inside 3) d
      let o := (← get).options
      runPhase .importingTypes o.importTypes importTypes
      enterPhase .importingFunctions
      return o) i (fun _ j => TidyAfter calls j.session) fun _ j => TidyAfter calls j.session := by
    rw [Runs.bind_iff, takeUp, Runs.bind_iff, Runs.modify_iff, Runs.bind_iff, runs_within]
    refine Runs.mono (staged.prepared.tidyAfter hi) (fun _ t ht => ?_) fun _ _ h => h
    rw [Runs.pure_iff, Runs.bind_iff, Runs.get_iff, Runs.bind_iff]
    have types (journal : Journal) : Runs importTypes { t with journal }
        (fun _ u => TidyAfter calls u) fun _ u => TidyAfter calls u := by
      refine Runs.mono (importTypes_frame (fun _ => trivial) _) (fun _ _ h => ?_) fun _ _ h => ?_
      · exact h.programs (E := KeepsTidy) _ ht
      · exact h.programs (E := KeepsTidy) _ ht
    refine Runs.mono (runPhase_leads (P := TidyAfter calls) (fun _ _ h => h) types ht)
      (fun _ j hj => ?_) fun _ _ h => h
    rw [Runs.bind_iff]
    exact Runs.mono (enterPhase_tidy _ hj) (fun _ _ h => h) fun _ _ h => h
  rw [leadIn, Runs.bind_iff, Runs.get_iff]
  split
  · rw [Runs.bind_iff]
    refine Runs.mono (enterPhase_tidy _ hi) (fun _ _ hj => ?_) fun _ _ h => h
    rw [Runs.bind_iff]
    exact Runs.mono (enterPhase_tidy _ hj) (fun _ _ hk => rest hk) fun _ _ h => h
  · exact rest hi

theorem importDocument_tidy (d : Document) (hi : TidyAfter calls i.session) :
    Runs (importDocument d) i
      (fun _ j => TidyAfter (calls ++ importReplacements d i) j.session)
      fun _ j => TidyAfter (calls ++ importReplacements d i) j.session := by
  rw [importDocument, Runs.bind_iff, Runs.get_iff, importWithin_leadIn, Runs.bind_iff]
  refine Runs.mono ((Runs.self _ i).and (leadIn_tidy i.host.room d hi)) (fun o j h => ?_)
    fun e j h => ?_
  · obtain ⟨hrun, hj⟩ := h
    rw [importReplacements, hrun]
    generalize hcalls : calls ++ (if o.importFunctions then stageReplacements j.session else []) =
      calls'
    have functions : Runs (runStage o.importFunctions importFunctions) j
        (fun _ k => TidyAfter calls' k.session) fun _ k => TidyAfter calls' k.session := by
      refine runStage_leads (P := TidyAfter calls') (fun _ _ h => h) (fun wanted => ?_)
        fun unwanted => ?_
      · rw [← hcalls, if_pos wanted]
        exact importFunctions_tidy hj
      · rw [← hcalls, if_neg (by simp [unwanted]), List.append_nil]
        exact hj
    rw [Runs.bind_iff]
    refine Runs.mono functions (fun _ k hk => ?_) fun _ _ h => h
    have globals (journal : Journal) : Runs importGlobals { k.session with journal }
        (fun _ u => TidyAfter calls' u) fun _ u => TidyAfter calls' u :=
      importGlobals_keepsTidy.tidyAfter hk
    rw [Runs.bind_iff]
    exact Runs.mono (runPhase_leads (P := TidyAfter calls') (fun _ _ h => h) globals hk)
      (fun _ _ hl => enterPhase_tidy _ hl) fun _ _ h => h
  · rw [importReplacements, h.1, List.append_nil]
    exact h.2

end Import

/-! ## One revision after another -/

/-- What is done to the functions of a program, and to types in between. -/
inductive Revision where
  | createFunction (name : Json) (entry : Whole) (body : Option (Whole × Bound))
      (source : SourceKind)
  | replaceParameters (entry : Int) (parameters : List (Json × TypeId))
  | addLocal (entry : Int) (name : Json) (type : TypeId) (stackOffset : Int)
  /-- A whole import, with any options, and cancelled at any point. -/
  | importDocument (document : Document) (options : Options) (host : Host) (monitor : Monitor)
  /-- Whatever becomes of the types. -/
  | retype (arena : Arena) (registry : Ledger Json TypeId)

namespace Revision

variable {p : Program} {calls : List Replacement}

/-- The program a revision leaves behind, whether it succeeds or fails. -/
def make (p : Program) : Revision → Program
  | createFunction name entry body source => (Program.createFunction name entry body source p).2
  | replaceParameters entry parameters => (Program.replaceParameters entry parameters p).2
  | addLocal entry name type stackOffset => (Program.addLocal entry name type stackOffset p).2
  | importDocument document options host monitor =>
      (Import.importDocument document (.start p options host monitor)).2.session.program
  | retype arena registry => { p with arena, registry }

def makeAll (p : Program) (revisions : List Revision) : Program := revisions.foldl make p

/-- The calls for parameters that a revision makes. -/
def replacements (p : Program) : Revision → List Replacement
  | replaceParameters entry parameters => [⟨p, entry, parameters⟩]
  | importDocument document options host monitor =>
      Import.importReplacements document (.start p options host monitor)
  | _ => []

/-- The calls for parameters that revisions make, in their order. -/
def allReplacements : Program → List Revision → List Replacement
  | _, [] => []
  | p, revision :: rest => revision.replacements p ++ allReplacements (make p revision) rest

theorem make_tidy (h : p.Tidy calls) (revision : Revision) :
    (make p revision).Tidy (calls ++ revision.replacements p) := by
  have kept {q : Program} (hq : p.KeepsTidy q) : q.Tidy (calls ++ []) := by
    rw [List.append_nil]
    exact hq _ h
  cases revision with
  | createFunction name entry body source =>
      exact kept (Program.createFunction_keepsTidy name entry body source p).snd
  | replaceParameters entry parameters =>
      exact (Program.replaceParameters_tidy h entry parameters).snd
  | addLocal entry name type stackOffset =>
      exact kept (Program.addLocal_keepsTidy entry name type stackOffset p).snd
  | importDocument document options host monitor =>
      exact (Import.importDocument_tidy (i := .start p options host monitor) document h).snd
  | retype arena registry => exact kept (Program.Untyped.types p arena registry)

theorem foldl_make_tidy (h : p.Tidy calls) (revisions : List Revision) :
    (makeAll p revisions).Tidy (calls ++ allReplacements p revisions) := by
  induction revisions generalizing p calls with
  | nil =>
      rw [allReplacements, List.append_nil]
      exact h
  | cons revision rest ih =>
      rw [allReplacements, ← List.append_assoc]
      exact ih (make_tidy h revision)

/-- From a program without functions on, the parameters and the locals of every function are tidy
through any revisions. -/
theorem makeAll_tidy (h : p.functions = {}) (revisions : List Revision) :
    (makeAll p revisions).Tidy (allReplacements p revisions) := by
  have none {entry : Int} {f : Function} (hf : p.function? entry = some f) : False := by
    rw [Program.function?, h] at hf
    cases hf
  have start : p.Tidy [] :=
    ⟨fun hf => (none hf).elim, fun hf => (none hf).elim, fun _ hc => (List.not_mem_nil hc).elim⟩
  exact foldl_make_tidy start revisions

/-- A function with two locals, one of them named like the parameter that it gets later. A document
that is not about it is imported before the other local is asked for again. -/
def tickRevisions : List Revision :=
  [.createFunction (.text "tock") ⟨512, false⟩ none .analysis,
    .addLocal 512 (.text "n") 0 8, .addLocal 512 (.text "m") 0 4,
    .replaceParameters 512 [(.text "n", 0)],
    .importDocument Change.pageDocument {} {} {},
    .addLocal 512 (.text "n") 0 12]

theorem makeAll_tidy_tick : Change.wordProgram.functions = {} ∧
    (makeAll Change.wordProgram tickRevisions).Tidy
      (allReplacements Change.wordProgram tickRevisions) ∧
    ((makeAll Change.wordProgram tickRevisions).function? 512).map (fun f =>
      (f.parameters.map fun q => (q.name, q.storage), f.locals.map (·.name))) =
        some ([("n", "a0")], ["m"]) :=
  ⟨rfl, makeAll_tidy rfl _, by decide +kernel⟩

end Revision

end StabsImport

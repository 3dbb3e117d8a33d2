import Mathlib.Data.List.Forall2
import StabsImport.Import.Functions
import StabsImport.Proofs.Members
import StabsImport.Proofs.Naming

/-!
# What a definition tells of its function

A definition gives its function a name, a comment, a return type, parameters and locals. What it
leaves there goes by the definition and by the types that its parts got, and not by what an earlier
definition of the same parts left. Main statements: `foldl_putLocal_covered`, `Account.told_retyped`.
-/

namespace StabsImport

open Document (FunctionDefinition SourceFile Variable)

namespace Parameter

def retyped (σ : TypeId → TypeId) (q : Parameter) : Parameter := { q with type := σ q.type }

end Parameter

namespace LocalVariable

def retyped (σ : TypeId → TypeId) (v : LocalVariable) : LocalVariable := { v with type := σ v.type }

/-- Two locals of one function have neither the name nor the stack offset in common. -/
def meets (v w : LocalVariable) : Bool := !(w.name != v.name && w.stackOffset != v.stackOffset)

def site (v : LocalVariable) : String × Int := (v.name, v.stackOffset)

theorem meets_of_site {v w : LocalVariable} (h : v.site = w.site) : v.meets w = true := by
  obtain ⟨hn, -⟩ := Prod.mk.inj h
  simp [meets, hn]

end LocalVariable

namespace Function

/-- The function with other types. -/
def retyped (σ : TypeId → TypeId) (f : Function) : Function :=
  { f with
    returnType := f.returnType.map σ
    parameters := f.parameters.map (·.retyped σ)
    locals := f.locals.map (·.retyped σ) }

def types (f : Function) : List TypeId :=
  f.returnType.toList ++ f.parameters.map (·.type) ++ f.locals.map (·.type)

end Function

namespace Program

/-! ## Locals -/

section

variable {l l' vs : List LocalVariable} {v w : LocalVariable}

/-- A local takes the place of any other with its name or its stack offset. -/
def putLocal (l : List LocalVariable) (v : LocalVariable) : List LocalVariable :=
  insertLocal v (l.filter (!v.meets ·))

theorem insertLocal_kept (v : LocalVariable) (l : List LocalVariable) :
    insertLocal v (l.filter fun w => w.name != v.name && w.stackOffset != v.stackOffset) =
      putLocal l v := by
  simp only [putLocal, LocalVariable.meets, Bool.not_not]

/-- The locals of a function stand by their offsets, no two at one. -/
def InOrder (l : List LocalVariable) : Prop := l.Pairwise fun v w => v.stackOffset < w.stackOffset

theorem insertLocal_perm (v : LocalVariable) (l : List LocalVariable) :
    (insertLocal v l).Perm (v :: l) := by
  induction l with
  | nil => exact .refl _
  | cons u rest ih =>
      rw [insertLocal]
      split
      · exact .refl _
      · exact (ih.cons u).trans (.swap v u rest)

theorem mem_insertLocal : w ∈ insertLocal v l ↔ w = v ∨ w ∈ l :=
  (insertLocal_perm v l).mem_iff.trans List.mem_cons

theorem InOrder.insertLocal (h : InOrder l) (apart : ∀ w ∈ l, w.stackOffset ≠ v.stackOffset) :
    InOrder (Program.insertLocal v l) := by
  induction l with
  | nil => exact List.pairwise_singleton _ v
  | cons u rest ih =>
      obtain ⟨hu, hrest⟩ := List.pairwise_cons.mp h
      have hne : u.stackOffset ≠ v.stackOffset := apart u List.mem_cons_self
      rw [Program.insertLocal]
      split
      · next hlt =>
          refine List.pairwise_cons.mpr ⟨fun w hw => ?_, h⟩
          rcases List.mem_cons.mp hw with rfl | hw
          · exact hlt
          · exact Int.lt_trans hlt (hu w hw)
      · next hge =>
          refine List.pairwise_cons.mpr ⟨fun w hw => ?_, ih hrest fun w hw => ?_⟩
          · rcases mem_insertLocal.mp hw with rfl | hw
            · omega
            · exact hu w hw
          · exact apart w (List.mem_cons_of_mem _ hw)

theorem InOrder.putLocal (h : InOrder l) (v : LocalVariable) : InOrder (Program.putLocal l v) := by
  have kept : InOrder (l.filter (!v.meets ·)) := h.sublist List.filter_sublist
  refine kept.insertLocal fun w hw => ?_
  have apart := (List.mem_filter.mp hw).2
  simp only [LocalVariable.meets, Bool.not_not, Bool.and_eq_true, bne_iff_ne] at apart
  exact apart.2

theorem nodup_names_putLocal (h : (l.map (·.name)).Nodup) (v : LocalVariable) :
    ((putLocal l v).map (·.name)).Nodup := by
  have perm := (insertLocal_perm v (l.filter (!v.meets ·))).map (·.name)
  rw [putLocal, perm.nodup_iff, List.map_cons, List.nodup_cons]
  refine ⟨fun hmem => ?_, h.sublist (List.filter_sublist.map _)⟩
  obtain ⟨w, hw, hname⟩ := List.mem_map.mp hmem
  have apart := (List.mem_filter.mp hw).2
  simp [LocalVariable.meets, hname] at apart

theorem InOrder.foldl_putLocal (h : InOrder l) (vs : List LocalVariable) :
    InOrder (vs.foldl Program.putLocal l) := by
  induction vs generalizing l with
  | nil => exact h
  | cons v vs ih => exact ih (h.putLocal v)

/-- Locals in their order are told by which they are. -/
theorem InOrder.eq_of_mem (h : InOrder l) (h' : InOrder l') (same : ∀ w, w ∈ l ↔ w ∈ l') : l = l' := by
  have nodup {l : List LocalVariable} (h : InOrder l) : l.Nodup := by
    refine List.Pairwise.imp (fun hlt => ?_) h
    rintro rfl
    exact Int.lt_irrefl _ hlt
  have perm := (List.perm_ext_iff_of_nodup (nodup h) (nodup h')).mpr same
  refine perm.eq_of_pairwise (fun v w _ _ hvw hwv => ?_) h h'
  exact absurd (Int.lt_trans hvw hwv) (Int.lt_irrefl _)

/-- Which locals are left is told without their order. -/
theorem mem_foldl_putLocal (same : ∀ w, w ∈ l ↔ w ∈ l') :
    w ∈ vs.foldl putLocal l ↔ w ∈ vs.foldl (layOver LocalVariable.meets) l' := by
  induction vs generalizing l l' with
  | nil => exact same w
  | cons v vs ih =>
      refine ih fun u => ?_
      rw [putLocal, mem_insertLocal, layOver, List.mem_append, List.mem_singleton, List.mem_filter,
        List.mem_filter, same, or_comm]

/-- What was there makes no difference if all of it is displaced. -/
theorem foldl_putLocal_covered (h : InOrder l) (covered : ∀ w ∈ l, ∃ v ∈ vs, v.meets w = true) :
    vs.foldl putLocal l = vs.foldl putLocal [] := by
  refine (h.foldl_putLocal vs).eq_of_mem (InOrder.foldl_putLocal List.Pairwise.nil vs) fun w => ?_
  have gone : l.filter (fun w => !vs.any (·.meets w)) = [] :=
    List.filter_eq_nil_iff.mpr fun w hw => by
      have met : vs.any (·.meets w) = true := List.any_eq_true.mpr (covered w hw)
      simp [met]
  rw [mem_foldl_putLocal fun _ => Iff.rfl, mem_foldl_putLocal fun _ => Iff.rfl, foldl_layOver,
    foldl_layOver, gone, List.filter_nil]

theorem mem_of_mem_foldl_putLocal (h : w ∈ vs.foldl putLocal []) : w ∈ vs := by
  rw [mem_foldl_putLocal fun _ => Iff.rfl, foldl_layOver, List.filter_nil, List.nil_append] at h
  exact mem_of_mem_survivors h

theorem insertLocal_retyped (σ : TypeId → TypeId) (v : LocalVariable) (l : List LocalVariable) :
    (insertLocal v l).map (·.retyped σ) = insertLocal (v.retyped σ) (l.map (·.retyped σ)) := by
  induction l with
  | nil => rfl
  | cons w rest ih =>
      rw [insertLocal, List.map_cons, insertLocal]
      by_cases hlt : v.stackOffset < w.stackOffset
      · rw [if_pos hlt, if_pos (show (v.retyped σ).stackOffset < (w.retyped σ).stackOffset from hlt),
          List.map_cons, List.map_cons]
      · rw [if_neg hlt, if_neg (show ¬ (v.retyped σ).stackOffset < (w.retyped σ).stackOffset from hlt),
          List.map_cons, ih]

theorem foldl_putLocal_retyped (σ : TypeId → TypeId) (vs l : List LocalVariable) :
    (vs.foldl putLocal l).map (·.retyped σ) =
      (vs.map (·.retyped σ)).foldl putLocal (l.map (·.retyped σ)) := by
  induction vs generalizing l with
  | nil => rfl
  | cons v vs ih =>
      rw [List.foldl_cons, ih, List.map_cons, List.foldl_cons, putLocal, insertLocal_retyped, putLocal,
        List.filter_map]
      rfl

end

/-! ## Names -/

theorem text_of_inkedName {unnamed : Rejection} {name : Json} {given : String}
    (h : inkedName unnamed name = .ok given) : name = .text given := by
  cases name with
  | text name =>
      rw [inkedName] at h
      split at h
      · cases h
      · exact congrArg Json.text (Except.ok.inj h)
  | _ => cases h

/-- A name, if it is fit to be one of a parameter or a local. -/
def inked? (name : Json) : Option String := (inkedName (.unnamedLocal "") name).toOption

theorem inkedName_cases (unnamed : Rejection) (name : Json) :
    (∃ given, inkedName unnamed name = .ok given ∧ inked? name = some given) ∨
      (∃ e, inkedName unnamed name = .error e) ∧ inked? name = none := by
  cases name with
  | text name =>
      simp only [ inked?, inkedName]
      split
      · exact .inr ⟨⟨_, rfl⟩, rfl⟩
      · exact .inl ⟨name, rfl, rfl⟩
  | _ => exact .inr ⟨⟨_, rfl⟩, rfl⟩

theorem text_of_inked {name : Json} {given : String} (h : inked? name = some given) :
    name = .text given := by
  rcases inkedName_cases (.unnamedLocal "") name with ⟨given', hok, hg⟩ | ⟨-, hnone⟩
  · obtain rfl : given' = given := Option.some.inj (hg.symm.trans h)
    exact text_of_inkedName hok
  · rw [hnone] at h
    cases h

/-! ## Parameters -/

section

variable {function : String} {seen : List String} {declared declared' : List (Json × TypeId)}
  {named : List Parameter} {storage : List String}

/-- What the names of parameters come to goes by the names alone. -/
theorem namedParameters_retyped (σ : TypeId → TypeId) (seen : List String)
    (declared : List (Json × TypeId)) :
    namedParameters function seen (declared.map fun q => (q.1, σ q.2)) =
      (namedParameters function seen declared).map (·.map (·.retyped σ)) := by
  induction declared generalizing seen with
  | nil => rfl
  | cons q rest ih =>
      obtain ⟨name, type⟩ := q
      simp only [List.map_cons, namedParameters, bind, Except.bind]
      cases inkedName (.unnamedParameter function) name with
      | error e => rfl
      | ok given =>
          dsimp only
          split
          · rfl
          · rw [ih]
            cases namedParameters function (given :: seen) rest with
            | error e => rfl
            | ok named => rfl

theorem namedParameters_map (h : namedParameters function seen declared = .ok named) :
    named.map (fun q => (Json.text q.name, q.type)) = declared := by
  induction declared generalizing seen named with
  | nil =>
      cases h
      rfl
  | cons q rest ih =>
      obtain ⟨name, type⟩ := q
      simp only [namedParameters, bind, Except.bind] at h
      cases hname : inkedName (.unnamedParameter function) name with
      | error e => simp [hname] at h
      | ok given =>
          simp only [hname] at h
          split at h
          · cases h
          · cases hrest : namedParameters function (given :: seen) rest with
            | error e => simp [hrest] at h
            | ok later =>
                simp only [hrest] at h
                cases h
                rw [List.map_cons, ih hrest, text_of_inkedName hname]

/-- Names that are refused with some types are refused with any. -/
theorem namedParameters_refused (function' : String) (names : declared'.map (·.1) = declared.map (·.1))
    {e : Fault} (h : namedParameters function seen declared = .error e) :
    ∃ e', namedParameters function' seen declared' = .error e' := by
  induction declared generalizing declared' seen e with
  | nil => cases h
  | cons q rest ih =>
      obtain ⟨name, type⟩ := q
      cases declared' with
      | nil => cases names
      | cons q' rest' =>
          obtain ⟨name', type'⟩ := q'
          obtain ⟨hname, later⟩ := List.cons.inj names
          obtain rfl : name' = name := hname
          simp only [namedParameters, bind, Except.bind] at h ⊢
          rcases inkedName_cases (.unnamedParameter function) name' with
            ⟨given, hok, hgiven⟩ | ⟨-, hnone⟩
          · rcases inkedName_cases (.unnamedParameter function') name' with
              ⟨given', hok', hgiven'⟩ | ⟨-, hnone⟩
            · obtain rfl : given' = given := Option.some.inj (hgiven'.symm.trans hgiven)
              simp only [hok, hok'] at h ⊢
              split at h
              · next hmem =>
                  rw [if_pos hmem]
                  exact ⟨_, rfl⟩
              · next hmem =>
                  rw [if_neg hmem]
                  cases hrest : namedParameters function (given' :: seen) rest with
                  | ok named => simp [hrest, pure, Except.pure] at h
                  | error f =>
                      obtain ⟨e', he'⟩ := ih later hrest
                      exact ⟨e', by simp [he']⟩
            · rw [hgiven] at hnone
              cases hnone
          · rcases inkedName_cases (.unnamedParameter function') name' with
              ⟨given', -, hgiven'⟩ | ⟨⟨e', he'⟩, -⟩
            · rw [hgiven'] at hnone
              cases hnone
            · exact ⟨e', by simp [he']⟩

/-- A parameter in its place has the name and the type it was declared with. -/
theorem exists_of_mem_placeParameters {q : Parameter} (h : q ∈ placeParameters named storage) :
    ∃ r ∈ named, q.name = r.name ∧ q.type = r.type := by
  obtain ⟨i, hi, rfl⟩ := List.mem_iff_getElem.mp h
  rw [placeParameters, List.length_mapIdx] at hi
  refine ⟨(named.zip storage)[i].1, (List.of_mem_zip (List.getElem_mem hi)).1, ?_⟩
  simp only [placeParameters, List.getElem_mapIdx, and_self]

theorem placeParameters_retyped (σ : TypeId → TypeId) (named : List Parameter)
    (storage : List String) : (placeParameters named storage).map (·.retyped σ) =
      placeParameters (named.map (·.retyped σ)) storage := by
  refine List.ext_getElem (by simp [placeParameters]) fun i _ _ => ?_
  simp [placeParameters, Parameter.retyped]

/-- The parameters that a function gets; none if they are refused. -/
def parametersTold (c : CallingConvention) (length : TypeId → Int) (function : String)
    (declared : List (Json × TypeId)) : List Parameter :=
  match namedParameters function [] declared with
  | .error _ => []
  | .ok named =>
      match c.assignStorage (named.map fun q => length q.type) with
      | .error _ => []
      | .ok storage => placeParameters named storage

variable {c : CallingConvention} {length length' : TypeId → Int}

theorem parametersTold_congr (same : ∀ q ∈ declared, length' q.2 = length q.2) :
    parametersTold c length' function declared = parametersTold c length function declared := by
  unfold parametersTold
  cases h : namedParameters function [] declared with
  | error e => rfl
  | ok named =>
      have lengths : named.map (fun q => length' q.type) = named.map fun q => length q.type := by
        refine List.map_congr_left fun q hq => same (.text q.name, q.type) ?_
        rw [← namedParameters_map h]
        exact List.mem_map_of_mem hq
      simp only [lengths]

theorem parametersTold_retyped {σ : TypeId → TypeId} (same : ∀ q ∈ declared, length (σ q.2) = length q.2) :
    (parametersTold c length function declared).map (·.retyped σ) =
      parametersTold c length function (declared.map fun q => (q.1, σ q.2)) := by
  unfold parametersTold
  rw [namedParameters_retyped]
  cases h : namedParameters function [] declared with
  | error e => rfl
  | ok named =>
      have lengths : (named.map (·.retyped σ)).map (fun q => length q.type) =
          named.map fun q => length q.type := by
        rw [List.map_map]
        refine List.map_congr_left fun q hq => same (.text q.name, q.type) ?_
        rw [← namedParameters_map h]
        exact List.mem_map_of_mem hq
      simp only [Except.map, lengths]
      cases c.assignStorage (named.map fun q => length q.type) with
      | error e => rfl
      | ok storage => exact placeParameters_retyped σ named storage

theorem exists_of_mem_parametersTold {q : Parameter}
    (h : q ∈ parametersTold c length function declared) :
    (Json.text q.name, q.type) ∈ declared := by
  unfold parametersTold at h
  split at h
  · cases h
  · next named hnamed =>
      split at h
      · cases h
      · obtain ⟨r, hr, hname, htype⟩ := exists_of_mem_placeParameters h
        rw [← namedParameters_map hnamed, hname, htype]
        exact List.mem_map_of_mem hr

end

/-! ## The edits -/

end Program

/-- The function with other parameters; none of its locals is named like one of them. -/
def Function.withParameters (f : Function) (named : List Parameter) (storage : List String) :
    Function :=
  { f with
    parameters := Program.placeParameters named storage
    locals := f.locals.filter fun v => !(named.map (·.name)).contains v.name }

namespace Program

theorem runs_replaceParameters (p : Program) (entry : Int) (declared : List (Json × TypeId)) :
    Runs (Program.replaceParameters entry declared) p
      (fun _ q => ∃ named storage,
        namedParameters ((p.function? entry).elim "" (·.name)) [] declared = .ok named ∧
        p.convention.assignStorage (named.map fun q => p.arena.length q.type) = .ok storage ∧
        q = { p with functions := p.functions.update entry (·.withParameters named storage) })
      fun e q => q = p ∧
        ((∃ e', namedParameters ((p.function? entry).elim "" (·.name)) [] declared = .error e') ∨
          e.isRejection = false) := by
  rw [Program.replaceParameters, Runs.bind_iff, Runs.get_iff]
  dsimp only
  rw [Runs.bind_iff, runs_ofResult]
  cases hnamed : namedParameters ((p.function? entry).elim "" (·.name)) [] declared with
  | error e => exact ⟨rfl, .inl ⟨e, rfl⟩⟩
  | ok named =>
      dsimp only
      rw [Runs.bind_iff, runs_view]
      cases hs : p.convention.assignStorage (named.map fun q => p.arena.length q.type) with
      | error e =>
          refine ⟨rfl, .inr ?_⟩
          rw [(assignFrom_error hs).1]
          rfl
      | ok storage => exact ⟨named, storage, rfl, hs, rfl⟩

namespace Stands

variable {p : Program} {entry : Int} {f : Function} {symbols : List Symbol}

theorem replaceParameters (h : p.Stands entry f symbols) (declared : List (Json × TypeId)) :
    Runs (Program.replaceParameters entry declared) p
      (fun _ q => ∃ keep : LocalVariable → Bool, Redraws entry
        { f with
          parameters := parametersTold p.convention p.arena.length f.name declared
          locals := f.locals.filter keep } symbols [] p q)
      fun e q => q = p ∧
        ((∃ e', namedParameters f.name [] declared = .error e') ∨ e.isRejection = false) := by
  have runs := runs_replaceParameters p entry declared
  rw [h.function] at runs
  refine runs.mono (fun _ q hq => ?_) fun _ _ hq => hq
  obtain ⟨named, storage, hnamed, hs, rfl⟩ := hq
  refine ⟨fun v => !(named.map (·.name)).contains v.name, ?_⟩
  rw [Option.elim_some] at hnamed
  rw [parametersTold, hnamed]
  simp only [hs]
  exact h.editFunction (·.withParameters named storage)

/-- A local that clashes with no parameter, and has no other place, is added if its name is fit. -/
theorem addLocal (h : p.Stands entry f symbols) {name : Json} {type : TypeId} {offset : Int}
    (free : ∀ given, inked? name = some given → (∀ q ∈ f.parameters, q.name ≠ given) ∧
      ∀ w ∈ f.locals, w.name = given → w.stackOffset = offset) :
    Runs (Program.addLocal entry name type offset) p
      (fun _ q => ∃ given, inked? name = some given ∧ Redraws entry
        { f with locals := putLocal f.locals { name := given, type, stackOffset := offset } }
        symbols [] p q)
      fun _ q => q = p ∧ inked? name = none := by
  rw [Program.addLocal, Runs.bind_iff, Runs.get_iff, h.function]
  dsimp only
  rw [Runs.bind_iff, runs_ofResult]
  rcases inkedName_cases (.unnamedLocal f.name) name with ⟨given, hok, hgiven⟩ | ⟨⟨e, he⟩, hnone⟩
  · obtain ⟨hparameters, hlocals⟩ := free given hgiven
    have fits : checkLocal f { name := given, type, stackOffset := offset } = .ok () := by
      have hp : f.parameters.any (·.name == given) = false := by
        simpa using hparameters
      have hl : (f.locals.find? fun w => w.name == given && w.stackOffset != offset) = none := by
        simpa using hlocals
      rw [checkLocal, hp, hl]
      rfl
    rw [hok]
    dsimp only
    rw [Runs.bind_iff, fits]
    refine ⟨given, hgiven, ?_⟩
    rw [← insertLocal_kept]
    refine ⟨?_, h.redraws.symbols, rfl, rfl⟩
    show p.functions.put f.entry.value _ = _
    rw [h.here]
  · rw [he]
    exact ⟨rfl, hnone⟩

end Stands

end Program

namespace Import

open Program

/-- The types that the parts of a definition got: what it returns, its parameters and its locals on
the stack. -/
structure Typing where
  returns : Option TypeId
  parameters : List TypeId
  locals : List TypeId

/-! ## Locals of a definition -/

/-- The names and places of locals whose names are fit. -/
def sitesOf (entries : List (Json × Variable)) : List (String × Int) :=
  entries.filterMap fun e => ( inked? e.1).map (·, e.2.storage.stackOffset)

/-- The locals whose names are fit, with these types. -/
def localsOf (entries : List (Json × Variable)) (types : List TypeId) : List LocalVariable :=
  (entries.zip types).filterMap fun e =>
    ( inked? e.1.1).map fun name => { name, type := e.2, stackOffset := e.1.2.storage.stackOffset }

section

variable {d : FunctionDefinition} {entries : List (Json × Variable)} {types : List TypeId}
  {e : Json × Variable} {v : LocalVariable} {name : String} {offset offset' : Int}

theorem sites_localsOf (length : types.length = entries.length) :
    (localsOf entries types).map (·.site) = sitesOf entries := by
  induction entries generalizing types with
  | nil =>
      rw [List.length_eq_zero_iff.mp length]
      rfl
  | cons e rest ih =>
      cases types with
      | nil => cases length
      | cons type types =>
          have hrest := ih (Nat.succ.inj length)
          unfold localsOf sitesOf at hrest ⊢
          rw [List.zip_cons_cons, List.filterMap_cons, List.filterMap_cons]
          cases inked? e.1 with
          | none => exact hrest
          | some name => exact congrArg _ hrest

theorem localsOf_retyped (σ : TypeId → TypeId) (entries : List (Json × Variable))
    (types : List TypeId) :
    (localsOf entries types).map (·.retyped σ) = localsOf entries (types.map σ) := by
  rw [localsOf, localsOf, List.map_filterMap, List.zip_map_right, List.filterMap_map]
  refine List.filterMap_congr fun e _ => ?_
  simp [LocalVariable.retyped, Function.comp_def]

theorem type_of_mem_localsOf (h : v ∈ localsOf entries types) : v.type ∈ types := by
  obtain ⟨e, he, hv⟩ := List.mem_filterMap.mp h
  obtain ⟨name, -, rfl⟩ := Option.map_eq_some_iff.mp hv
  exact (List.of_mem_zip he).2

/-- Each local is entered under the name of one that is on the stack and no parameter. -/
theorem key_of_mem_stackLocals (h : e ∈ (stackLocals d).entries) :
    ∃ v : Variable, e.1 = v.common.name ∧ isStackLocal (parameterNames d) v = true := by
  have put {l : Ledger Json Variable} {vs : List Variable}
      (hl : ∀ e ∈ l.entries, ∃ v : Variable, e.1 = v.common.name ∧
        isStackLocal (parameterNames d) v = true)
      (hv : ∀ v ∈ vs, isStackLocal (parameterNames d) v = true) :
      ∀ e ∈ (vs.foldl (fun l v => l.put v.common.name v) l).entries,
        ∃ v : Variable, e.1 = v.common.name ∧ isStackLocal (parameterNames d) v = true := by
    induction vs generalizing l with
    | nil => exact hl
    | cons v rest ih =>
        refine ih (fun e he => ?_) fun w hw => hv w (List.mem_cons_of_mem _ hw)
        rcases Ledger.mem_put he with rfl | he | ⟨old, hold, rfl⟩
        · exact ⟨v, rfl, hv v List.mem_cons_self⟩
        · exact hl e he
        · exact hl old hold
  exact put (l := {}) (fun _ h => by cases h) (fun v hv => (List.mem_filter.mp hv).2) e h

theorem distinct_stackLocals (d : FunctionDefinition) : (stackLocals d).Distinct := by
  have put {l : Ledger Json Variable} (hl : l.Distinct) (vs : List Variable) :
      (vs.foldl (fun l v => l.put v.common.name v) l).Distinct := by
    induction vs generalizing l with
    | nil => exact hl
    | cons v rest ih => exact ih (hl.put _ _)
  exact put Ledger.distinct_empty _

theorem exists_of_mem_sitesOf (h : (name, offset) ∈ sitesOf entries) :
    ∃ e ∈ entries, e.1 = .text name ∧ e.2.storage.stackOffset = offset := by
  obtain ⟨e, he, hs⟩ := List.mem_filterMap.mp h
  obtain ⟨given, hgiven, hs⟩ := Option.map_eq_some_iff.mp hs
  obtain ⟨rfl, rfl⟩ := Prod.mk.inj hs
  exact ⟨e, he, text_of_inked hgiven, rfl⟩

/-- A local has one place. -/
theorem offset_unique (h : (name, offset) ∈ sitesOf (stackLocals d).entries)
    (h' : (name, offset') ∈ sitesOf (stackLocals d).entries) : offset = offset' := by
  obtain ⟨e, he, hname, rfl⟩ := exists_of_mem_sitesOf h
  obtain ⟨e', he', hname', rfl⟩ := exists_of_mem_sitesOf h'
  have found := (distinct_stackLocals d).get?_of_mem he
  have found' := (distinct_stackLocals d).get?_of_mem he'
  rw [hname, ← hname', found'] at found
  rw [Option.some.inj found]

/-- No local has the name of a parameter. -/
theorem not_parameter (h : (name, offset) ∈ sitesOf (stackLocals d).entries) :
    Json.text name ∉ (d.type.parameters.getD []).map (·.common.name) := by
  intro hmem
  obtain ⟨e, he, hname, -⟩ := exists_of_mem_sitesOf h
  obtain ⟨v, hv, fits⟩ := key_of_mem_stackLocals he
  have hparameter : Json.text name ∈ parameterNames d := List.mem_filter.mpr ⟨hmem, by simp⟩
  have clash : (parameterNames d).any (Key.same v.common.name) = true :=
    List.any_eq_true.mpr ⟨_, hparameter, Key.same_of_eq (hv.symm.trans hname)⟩
  simp [isStackLocal, clash] at fits

end

/-! ## What a definition tells -/

section

variable {d : FunctionDefinition} {file : SourceFile} {c : CallingConvention}
  {length length' : TypeId → Int} {f : Function} {τ τ' : Typing} {pointerSize : Int}

/-- The name of a definition's function: its own, or the default one if that is refused. -/
def ownName (entry : Int) (name : Json) : String :=
  match checkName name with
  | .ok given => given
  | .error _ => defaultName entry

/-- The part of a definition that says what is returned, if there is one of which a type is made. -/
def returned? (pointerSize : Int) (d : FunctionDefinition) : Option Document.Node :=
  d.type.returnType.filter (·.isBuildable pointerSize)

namespace Typing

def retyped (σ : TypeId → TypeId) (τ : Typing) : Typing :=
  ⟨τ.returns.map σ, τ.parameters.map σ, τ.locals.map σ⟩

def all (τ : Typing) : List TypeId := τ.returns.toList ++ τ.parameters ++ τ.locals

def declared (τ : Typing) (d : FunctionDefinition) : List (Json × TypeId) :=
  ((d.type.parameters.getD []).map (·.common.name)).zip τ.parameters

theorem type_of_mem_declared {q : Json × TypeId} (h : q ∈ τ.declared d) : q.2 ∈ τ.parameters :=
  (List.of_mem_zip (show (q.1, q.2) ∈ τ.declared d from h)).2

/-- The function as the definition leaves it, where its parts got these types. -/
def told (τ : Typing) (c : CallingConvention) (length : TypeId → Int) (d : FunctionDefinition)
    (file : SourceFile) (f : Function) : Function :=
  { f with
    name := ownName f.entry.value d.common.name
    comment := file.path
    returnType := τ.returns
    parameters := parametersTold c length (ownName f.entry.value d.common.name) (τ.declared d)
    locals := (localsOf (stackLocals d).entries τ.locals).foldl putLocal [] }

/-- Nothing is left of what was told before. -/
theorem told_told (τ τ' : Typing) (f : Function) :
    τ'.told c length d file (τ.told c length d file f) = τ'.told c length d file f := rfl

theorem told_congr (same : ∀ x ∈ τ.parameters, length' x = length x) :
    τ.told c length' d file f = τ.told c length d file f := by
  have parameters (function : String) : parametersTold c length' function (τ.declared d) =
      parametersTold c length function (τ.declared d) :=
    parametersTold_congr fun q hq => same q.2 (type_of_mem_declared hq)
  rw [told, parameters]
  rfl

/-- What is told goes by the types only as far as they have lengths. -/
theorem told_retyped {σ : TypeId → TypeId} (same : ∀ x ∈ τ.parameters, length (σ x) = length x) :
    (τ.told c length d file f).retyped σ = (τ.retyped σ).told c length d file f := by
  have declared_retyped : (τ.declared d).map (fun q => (q.1, σ q.2)) = (τ.retyped σ).declared d := by
    rw [declared, declared, retyped, List.zip_map_right]
    rfl
  have parameters (function : String) :
      (parametersTold c length function (τ.declared d)).map (·.retyped σ) =
        parametersTold c length function ((τ.retyped σ).declared d) := by
    rw [parametersTold_retyped fun q hq => same q.2 (type_of_mem_declared hq), declared_retyped]
  rw [told, Function.retyped, parameters, foldl_putLocal_retyped, localsOf_retyped]
  rfl

theorem types_told {x : TypeId} (h : x ∈ (τ.told c length d file f).types) : x ∈ τ.all := by
  simp only [Function.types, told, List.mem_append, List.mem_map] at h
  rw [all, List.mem_append, List.mem_append]
  rcases h with (h | ⟨q, hq, rfl⟩) | ⟨v, hv, rfl⟩
  · exact .inl (.inl h)
  · exact .inl (.inr (List.of_mem_zip (exists_of_mem_parametersTold hq)).2)
  · exact .inr (type_of_mem_localsOf (mem_of_mem_foldl_putLocal hv))

end Typing

/-- Nothing stands in the function that the definition would not tell anew. -/
structure Drafted (pointerSize : Int) (d : FunctionDefinition) (f : Function) : Prop where
  name : ∀ {e}, checkName d.common.name = .error e → f.name = defaultName f.entry.value
  returns : returned? pointerSize d = none → f.returnType = none
  undeclared : d.type.parameters.getD [] = [] → f.parameters = []
  refused : ∀ {function e} {declared : List (Json × TypeId)},
    declared.map (·.1) = (d.type.parameters.getD []).map (·.common.name) →
      namedParameters function [] declared = .error e → f.parameters = []
  named : ∀ q ∈ f.parameters, Json.text q.name ∈ (d.type.parameters.getD []).map (·.common.name)
  ordered : InOrder f.locals
  locals : ∀ v ∈ f.locals, v.site ∈ sitesOf (stackLocals d).entries

theorem drafted_told (returns : returned? pointerSize d = none → τ.returns = none)
    (parameters : τ.parameters.length = (d.type.parameters.getD []).length)
    (locals : τ.locals.length = (stackLocals d).entries.length) :
    Drafted pointerSize d (τ.told c length d file f) where
  name h := by
    show ownName f.entry.value d.common.name = _
    rw [ownName, h]
    rfl
  returns := returns
  undeclared h := by
    show parametersTold c length _ (τ.declared d) = []
    have none : τ.declared d = [] := by rw [Typing.declared, h]; rfl
    rw [none]
    cases hs : c.assignStorage [] <;> simp [parametersTold, namedParameters, hs, placeParameters]
  refused names h := by
    have own : (τ.declared d).map (·.1) = (d.type.parameters.getD []).map (·.common.name) := by
      refine List.map_fst_zip ?_
      rw [List.length_map, parameters]
    show parametersTold c length _ (τ.declared d) = []
    obtain ⟨e', he'⟩ := namedParameters_refused (ownName f.entry.value d.common.name)
      (own.trans names.symm) h
    rw [parametersTold, he']
  named q hq := (List.of_mem_zip (exists_of_mem_parametersTold hq)).1
  ordered := InOrder.foldl_putLocal List.Pairwise.nil _
  locals v hv := by
    rw [← sites_localsOf locals]
    exact List.mem_map_of_mem (mem_of_mem_foldl_putLocal hv)

end

end Import

end StabsImport

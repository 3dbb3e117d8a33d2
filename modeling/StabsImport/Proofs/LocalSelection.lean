import StabsImport.Proofs.Accounts
import StabsImport.Proofs.Stages
import StabsImport.Proofs.Termination

/-!
# The locals of a function

A definition may name a local more than once, and locals of different names may lie at one offset
of the stack. Of a name the last variable counts, at the place of the first; of an offset the last
name. Names of nothing but white space are refused, and nothing else is. Main statement:
`setLocalsBeside_sets`.
-/

namespace StabsImport

open Document (FunctionDefinition Variable)

/-! ## The last under each name -/

/-- The last entry under each name, in the order in which the names first stand. -/
def latest {β : Type} (es : List (String × β)) : List (String × β) :=
  (es.map (·.1)).eraseDups.filterMap fun name => es.reverse.find? (·.1 == name)

namespace Ledger

variable {κ ν : Type} [Key κ]

/-- A table is told by its keys and what is found under them. -/
theorem Distinct.entries_eq {l : Ledger κ ν} (h : l.Distinct) :
    l.entries = l.keys.filterMap fun k => (l.get? k).map (k, ·) := by
  rw [keys, List.filterMap_map, eq_comm]
  calc l.entries.filterMap (fun e => (l.get? e.1).map (e.1, ·))
      = l.entries.filterMap some := by
        apply List.filterMap_congr
        intro e he
        simp [h.get?_of_mem he]
    _ = l.entries := List.filterMap_some

theorem Distinct.putAll {l : Ledger κ ν} (h : l.Distinct) (es : List (κ × ν)) :
    (l.putAll es).Distinct := by
  induction es generalizing l with
  | nil => exact h
  | cons e es ih => exact ih (h.put e.1 e.2)

variable {β : Type}

def texts (es : List (String × β)) : List (Json × β) := es.map fun e => (.text e.1, e.2)

theorem get?_putAll_texts (es : List (String × β)) (name : String) :
    (({} : Ledger Json β).putAll (texts es)).get? (.text name) =
      (es.reverse.find? (·.1 == name)).map (·.2) := by
  induction es using List.reverseRecOn with
  | nil => rfl
  | append_singleton es e ih =>
      rw [texts, List.map_append, putAll_append, List.reverse_concat, List.find?_cons]
      show ((({} : Ledger Json β).putAll (texts es)).put (.text e.1) e.2).get? (.text name) = _
      rw [get?_put, Json.same_text]
      by_cases h : e.1 = name
      · simp [h]
      · have other : (e.1 == name) = false := by simpa using h
        simp [h, other, ih]

theorem keys_putAll_texts (es : List (String × β)) :
    (({} : Ledger Json β).putAll (texts es)).keys =
      (es.map (·.1)).eraseDups.map Json.text := by
  induction es using List.reverseRecOn with
  | nil => rfl
  | append_singleton es e ih =>
      let l := ({} : Ledger Json β).putAll (texts es)
      rw [texts, List.map_append, putAll_append, List.map_append, List.eraseDups_append]
      show (l.put (.text e.1) e.2).keys = _
      by_cases held : e.1 ∈ es.map (·.1)
      · have found : l.get? (.text e.1) ≠ none := by
          rw [get?_putAll_texts]
          obtain ⟨e', he', hname⟩ := List.mem_map.mp held
          have some : (es.reverse.find? (·.1 == e.1)).isSome = true := by
            rw [List.find?_isSome]
            exact ⟨e', List.mem_reverse.mpr he', by simpa using hname⟩
          obtain ⟨e'', hfound⟩ := Option.isSome_iff_exists.mp some
          simp [hfound]
        rw [keys_put_of_held found, ih]
        simp [List.removeAll, held]
      · have free : l.get? (.text e.1) = none := by
          rw [get?_putAll_texts, Option.map_eq_none_iff, List.find?_eq_none]
          intro e' he' hname
          exact held (List.mem_map.mpr ⟨e', List.mem_reverse.mp he', by simpa using hname⟩)
        rw [keys, entries_put_of_free free, List.map_append, ← keys, ih]
        simp [List.removeAll, held, List.eraseDups_cons]

/-- What is put under texts one after another is the last under each. -/
theorem entries_putAll_texts (es : List (String × β)) :
    (({} : Ledger Json β).putAll (texts es)).entries = texts (latest es) := by
  have distinct : (({} : Ledger Json β).putAll (texts es)).Distinct := distinct_empty.putAll _
  rw [distinct.entries_eq, keys_putAll_texts, List.filterMap_map]
  show _ = (latest es).map fun e => (Json.text e.1, e.2)
  rw [latest, List.map_filterMap]
  apply List.filterMap_congr
  intro name _
  rw [Function.comp, get?_putAll_texts]
  cases hfound : es.reverse.find? (·.1 == name) with
  | none => rfl
  | some e =>
      have hname : e.1 = name := by simpa using List.find?_some hfound
      simp [hname]

end Ledger

theorem nodup_names_latest {β : Type} (es : List (String × β)) :
    ((latest es).map (·.1)).Nodup := by
  have distinct : (({} : Ledger Json β).putAll (Ledger.texts es)).Distinct :=
    Ledger.distinct_empty.putAll _
  rw [Ledger.Distinct, Ledger.keys, Ledger.entries_putAll_texts, Ledger.texts, List.map_map,
    List.pairwise_map] at distinct
  rw [List.Nodup, List.pairwise_map]
  exact distinct.imp fun h hname => by simp [hname] at h

namespace Import

open Program

variable {s t u : Session} {f : Function} {entry : Int} {parameters : List Json}
  {d : FunctionDefinition} {v : Variable} {name : String}

/-! ## What is chosen -/

/-- The name of a variable, if it is one of the locals on the stack beside parameters of these
names. -/
def localName (parameters : List Json) (v : Variable) : Option String :=
  match v.common.name with
  | .text name =>
      if name ≠ "" ∧ .text name ∉ parameters ∧ v.common.storageClass ≠ .static ∧
          v.storage.kind = .stack then
        some name
      else none
  | _ => none

/-- The locals on the stack, each under its name, as they are declared. -/
def namedLocals (parameters : List Json) (d : FunctionDefinition) : List (String × Variable) :=
  d.locals.filterMap fun v => (localName parameters v).map (·, v)

/-- Of each name the last of the locals, at the place of the first. -/
def localChoices (parameters : List Json) (d : FunctionDefinition) : List (String × Variable) :=
  latest (namedLocals parameters d)

theorem text_of_localName (h : localName parameters v = some name) :
    v.common.name = .text name := by
  unfold localName at h
  split at h
  · next given hgiven =>
      rw [Option.ite_none_right_eq_some] at h
      rw [hgiven, Option.some.inj h.2]
  · cases h

theorem isStackLocal_text (hname : v.common.name = .text name) :
    isStackLocal parameters v = true ↔ localName parameters v = some name := by
  have free : parameters.any (Key.same (Json.text name)) = false ↔ Json.text name ∉ parameters := by
    rw [List.any_eq_false]
    constructor
    · intro h hmem
      exact h _ hmem (Key.same_self _)
    · intro h k hk same
      rw [Key.same_comm, Json.same_text_iff] at same
      exact h (same ▸ hk)
  simp only [isStackLocal, localName, hname, Json.holds, Bool.and_eq_true, Bool.not_eq_true', free,
    decide_eq_true_eq, ne_eq, String.isEmpty_eq_false_iff, Option.ite_none_right_eq_some, and_true]
  tauto

theorem foldl_put_names {vs : List Variable} (names : ∀ v ∈ vs, v.common.name.IsName)
    (l : Ledger Json Variable) :
    (vs.filter (isStackLocal parameters)).foldl (fun l v => l.put v.common.name v) l =
      l.putAll (Ledger.texts (vs.filterMap fun v => (localName parameters v).map (·, v))) := by
  induction vs generalizing l with
  | nil => rfl
  | cons v rest ih =>
      have later := ih fun w hw => names w (List.mem_cons_of_mem v hw)
      cases hlocal : isStackLocal parameters v with
      | false =>
          have none : localName parameters v = none := by
            cases hname : localName parameters v with
            | none => rfl
            | some name =>
                have spelled := text_of_localName hname
                rw [(isStackLocal_text spelled).mpr hname] at hlocal
                cases hlocal
          rw [List.filter_cons_of_neg (by simp [hlocal]), later]
          simp [none]
      | true =>
          obtain hnull | ⟨name, hname⟩ := names v List.mem_cons_self
          · simp [isStackLocal, hnull, Json.holds] at hlocal
          · rw [List.filter_cons_of_pos hlocal, List.foldl_cons, later]
            simp [(isStackLocal_text hname).mp hlocal, hname, Ledger.texts]

/-- Of each name of a local on the stack, the last variable is added. -/
theorem entries_stackLocalsBeside (names : ∀ v ∈ d.locals, v.common.name.IsName) :
    (stackLocalsBeside parameters d).entries = Ledger.texts (localChoices parameters d) := by
  rw [stackLocalsBeside, foldl_put_names names, ← namedLocals, Ledger.entries_putAll_texts,
    localChoices]

theorem mem_localChoices {e : String × Variable} (h : e ∈ localChoices parameters d) :
    e.2 ∈ d.locals ∧ localName parameters e.2 = some e.1 := by
  obtain ⟨name, -, hfound⟩ := List.mem_filterMap.mp h
  have hmem := List.mem_reverse.mp (List.mem_of_find?_eq_some hfound)
  obtain ⟨v, hv, hname⟩ := List.mem_filterMap.mp hmem
  obtain ⟨given, hgiven, rfl⟩ := Option.map_eq_some_iff.mp hname
  exact ⟨hv, hgiven⟩

theorem not_mem_of_localName (h : localName parameters v = some name) :
    Json.text name ∉ parameters := by
  have spelled := text_of_localName h
  simp only [localName, spelled, Option.ite_none_right_eq_some] at h
  exact h.1.2.1

/-! ## What is taken up -/

/-- A local that is taken up: the type that it is resolved to, and what is reported of that. -/
structure TakenLocal where
  name : String
  offset : Int
  type : TypeId
  reported : List Notice

/-- The locals in their order, each resolved after those before it were added. -/
def takenLocals (entry : Int) : List (String × Variable) → Session → List TakenLocal
  | [], _ => []
  | (name, v) :: rest, s =>
      match inside 3 (variableTypeOf (some v.type)) s with
      | (.error _, _) => []
      | (.ok type, t) =>
          { name, offset := v.storage.stackOffset, type,
            reported := t.journal.toList.drop s.journal.size } ::
            takenLocals entry rest (addLocals entry [(.text name, v)] s).2

namespace TakenLocal

def place (x : TakenLocal) : String × Int := (x.name, x.offset)

/-- The local of a function that it becomes, if its name is more than white space. -/
def asLocal (x : TakenLocal) : Option LocalVariable :=
  if Text.isBlankText x.name then none
  else some { name := x.name, type := x.type, stackOffset := x.offset }

/-- What is reported of it, and of its name if that is refused. -/
def notices (function : String) (x : TakenLocal) : List Notice :=
  x.reported ++
    if Text.isBlankText x.name then
      [.diagnostic functionsSource (Fault.rejected (.unnamedLocal function)).report]
    else []

end TakenLocal

/-- The function has taken on these locals, and nothing else was reported. -/
structure TakesOn (entry : Int) (f : Function) (taken : List TakenLocal) (s t : Session) :
    Prop where
  functions : t.program.functions = s.program.functions.put entry
    { f with locals := (taken.filterMap (·.asLocal)).foldl putLocal f.locals }
  journal : t.journal.toList = s.journal.toList ++ taken.flatMap (·.notices f.name)

namespace TakesOn

theorem refl (held : s.program.function? entry = some f) : TakesOn entry f [] s s where
  functions := (Ledger.put_of_get? held).symm
  journal := (List.append_nil _).symm

theorem trans {taken later : List TakenLocal} (h : TakesOn entry f taken s t)
    (h' : TakesOn entry
      { f with locals := (taken.filterMap (·.asLocal)).foldl putLocal f.locals } later t u) :
    TakesOn entry f (taken ++ later) s u where
  functions := by
    rw [h'.functions, h.functions, Ledger.put_put, List.filterMap_append, List.foldl_append]
  journal := by
    rw [h'.journal, h.journal, List.flatMap_append, List.append_assoc]

theorem held (h : TakesOn entry f taken s t) : t.program.function? entry =
    some { f with locals := (taken.filterMap (·.asLocal)).foldl putLocal f.locals } := by
  rw [Program.function?, h.functions, Ledger.get?_put_self]

end TakesOn

theorem mem_of_mem_adds {x : TakenLocal} {l : List LocalVariable} {w : LocalVariable}
    (h : w ∈ ([x].filterMap (·.asLocal)).foldl putLocal l) : w ∈ l ∨ w.name = x.name := by
  by_cases blank : Text.isBlankText x.name = true
  · have none : [x].filterMap (·.asLocal) = [] := by simp [TakenLocal.asLocal, blank]
    rw [none] at h
    exact .inl h
  · have some : [x].filterMap (·.asLocal) =
        [{ name := x.name, type := x.type, stackOffset := x.offset }] := by
      simp [TakenLocal.asLocal, blank]
    rw [some, List.foldl_cons, List.foldl_nil, putLocal, mem_insertLocal] at h
    obtain rfl | h := h
    · exact .inr rfl
    · exact .inl (List.mem_filter.mp h).1

/-- Resolving a variable leaves the functions alone. -/
theorem resolveLocal_yields (hs : s.Sound) (typed : v.type.WellTyped)
    (room : s.room.allows (3 + nodeNeed (tableNeed s.document) v.type.height) = true) :
    Yields { cuts := True } (inside 3 (variableTypeOf (some v.type))) s
      (fun _ t => t.program.functions = s.program.functions) NoFault := by
  let g : Stage := ⟨s.document, fun _ => False, True, s.program.convention⟩
  have leads : g.Leads (3 + nodeNeed (tableNeed s.document) v.type.height)
      (inside 3 (variableTypeOf (some v.type))) fun _ => False :=
    .inside (Nat.le_refl _) (.variableTypeOf (settles_of_cuts _ _) typed (Nat.le_refl _))
  have frame :=
    Preserves.inside (R := GuardedFrame fun _ => True) 3 (variableTypeOf_frame v.type)
  refine ((leads ⟨hs.ready, rfl⟩ room).preserved frame).mono (fun _ t _ h => ?_)
    fun _ _ _ h => h.2.2
  rw [(h.1 (.inl fun _ => trivial)).program]

/-- A local whose name is new to the function is added, unless its name is white space. -/
theorem runs_addLocal {p : Program} (held : p.function? entry = some f)
    (here : f.entry.value = entry) (free : ∀ q ∈ f.parameters, q.name ≠ name)
    (fresh : ∀ w ∈ f.locals, w.name ≠ name) (type : TypeId) (offset : Int) :
    Runs (Program.addLocal entry (.text name) type offset) p
      (fun _ q => Text.isBlankText name = false ∧ q = { p with
        functions := p.functions.put entry
          { f with locals := putLocal f.locals { name, type, stackOffset := offset } } })
      fun e q => Text.isBlankText name = true ∧ e = .rejected (.unnamedLocal f.name) ∧ q = p := by
  rw [Program.addLocal, Runs.bind_iff, Runs.get_iff, held]
  dsimp only
  rw [Runs.bind_iff, runs_ofResult, inkedName]
  by_cases blank : Text.isBlankText name = true
  · rw [if_pos blank]
    exact ⟨blank, rfl, rfl⟩
  · have fits : checkLocal f { name, type, stackOffset := offset } = .ok () := by
      have parameters : f.parameters.any (·.name == name) = false := by
        simpa using free
      have locals : (f.locals.find? fun w => w.name == name && w.stackOffset != offset) = none := by
        simpa using fun w hw hname => absurd hname (fresh w hw)
      rw [checkLocal, parameters, locals]
      rfl
    rw [if_neg blank]
    dsimp only
    rw [Runs.bind_iff, fits]
    refine ⟨by simpa using blank, ?_⟩
    rw [← insertLocal_kept, ← here]

/-- One local is taken up. -/
theorem addLocals_one (hs : s.Sound) (typed : v.type.WellTyped) {n : Nat}
    (need : 3 + nodeNeed (tableNeed s.document) v.type.height ≤ n) (reports : reportingCalls ≤ n)
    (room : s.room.allows n = true) (held : s.program.function? entry = some f)
    (here : f.entry.value = entry) (free : ∀ q ∈ f.parameters, q.name ≠ name)
    (fresh : ∀ w ∈ f.locals, w.name ≠ name) :
    Yields { cuts := True } (addLocals entry [(.text name, v)]) s
      (fun _ t => ∃ x, takenLocals entry [(name, v)] s = [x] ∧
        x.place = (name, v.storage.stackOffset) ∧ TakesOn entry f [x] s t) NoFault := by
  let g : Stage := ⟨s.document, fun _ => False, True, s.program.convention⟩
  have leads : g.Leads n (addLocals entry [(.text name, v)]) fun _ => False :=
    addLocals_leads (settles_of_cuts _ _) entry reports
      (List.forall_mem_singleton.mpr ⟨.inr ⟨name, rfl⟩, typed, need⟩)
  have ends := leads ⟨hs.ready, rfl⟩ room
  obtain ⟨type, t₁, hrun, after, functions⟩ :=
    (resolveLocal_yields hs typed (Room.allows_of_le room need)).exists_ok
  obtain ⟨reported, hreported, -⟩ := after.journal
  let x : TakenLocal := { name, offset := v.storage.stackOffset, type, reported }
  have taken : takenLocals entry [(name, v)] s = [x] := by
    simp [takenLocals, hrun, hreported, x]
  have held₁ : t₁.program.function? entry = some f := by
    rw [Program.function?, functions]
    exact held
  have room₁ : t₁.room.allows reportingCalls = true := by
    rw [after.room]
    exact Room.allows_of_le room reports
  have takes : Runs (addLocals entry [(.text name, v)]) s
      (fun _ t => TakesOn entry f [x] s t) fun _ _ => True := by
    rw [addLocals, Runs.bind_iff, Runs, hrun]
    dsimp only
    rw [Runs.bind_iff, runs_onRejection, Runs.bind_iff, runs_edit]
    refine (runs_addLocal held₁ here free fresh type v.storage.stackOffset).mono
      (fun _ q h => ?_) fun e q h => ?_
    · obtain ⟨inked, rfl⟩ := h
      constructor
      · simp [x, TakenLocal.asLocal, inked, functions]
      · simp [x, TakenLocal.notices, inked, hreported]
    · obtain ⟨blank, rfl, rfl⟩ := h
      have rejected : (Fault.rejected (.unnamedLocal f.name)).isRejection = true := rfl
      rw [if_pos rejected, reportFault, diagnose, Runs.bind_iff, runs_need, if_pos room₁]
      constructor
      · simp [x, TakenLocal.asLocal, blank, functions, Ledger.put_of_get? held]
      · simp [x, TakenLocal.notices, blank, hreported]
  exact (Runs.and ends takes).mono (fun _ t h => ⟨h.1.1, x, taken, rfl, h.2⟩)
    fun _ _ h => ⟨h.1.1, h.1.2.2⟩

theorem addLocals_cons (e : Json × Variable) (rest : List (Json × Variable)) :
    addLocals entry (e :: rest) = addLocals entry [e] >>= fun _ => addLocals entry rest := by
  obtain ⟨name, v⟩ := e
  simp only [addLocals, bind_assoc, pure_bind]

theorem takenLocals_cons {e : String × Variable} {x : TakenLocal} (rest : List (String × Variable))
    (taken : takenLocals entry [e] s = [x]) : takenLocals entry (e :: rest) s =
      x :: takenLocals entry rest (addLocals entry [(.text e.1, e.2)] s).2 := by
  obtain ⟨name, v⟩ := e
  simp only [takenLocals] at taken ⊢
  split at taken
  · cases taken
  · next heq =>
      rw [← (List.cons.inj taken).1]

/-- All locals are taken up, each in its turn. -/
theorem addLocals_all {chosen : List (String × Variable)} {document : Document} {n : Nat}
    (typed : ∀ e ∈ chosen, e.2.type.WellTyped ∧
      3 + nodeNeed (tableNeed document) e.2.type.height ≤ n)
    (reports : reportingCalls ≤ n) (hs : s.Sound) (hd : s.document = document)
    (room : s.room.allows n = true) (held : s.program.function? entry = some f)
    (here : f.entry.value = entry) (free : ∀ e ∈ chosen, ∀ q ∈ f.parameters, q.name ≠ e.1)
    (fresh : ∀ e ∈ chosen, ∀ w ∈ f.locals, w.name ≠ e.1) (distinct : (chosen.map (·.1)).Nodup) :
    Yields { cuts := True } (addLocals entry (Ledger.texts chosen)) s
      (fun _ t => (takenLocals entry chosen s).map (·.place) =
          chosen.map (fun e => (e.1, e.2.storage.stackOffset)) ∧
        TakesOn entry f (takenLocals entry chosen s) s t) NoFault := by
  induction chosen generalizing s f with
  | nil => exact .pure hs ⟨rfl, .refl held⟩
  | cons e rest ih =>
      obtain ⟨name, v⟩ := e
      obtain ⟨⟨htyped, need⟩, typed⟩ := List.forall_mem_cons.mp typed
      obtain ⟨hfree, free⟩ := List.forall_mem_cons.mp free
      obtain ⟨hfresh, fresh⟩ := List.forall_mem_cons.mp fresh
      obtain ⟨hname, distinct⟩ := List.nodup_cons.mp distinct
      have one := addLocals_one hs htyped (hd ▸ need) reports room held here hfree hfresh
      obtain ⟨⟨⟩, t, hrun, after, x, taken, place, takes⟩ := one.exists_ok
      have later : takenLocals entry ((name, v) :: rest) s = x :: takenLocals entry rest t := by
        rw [takenLocals_cons rest taken, hrun]
      have fresh' : ∀ e ∈ rest, ∀ w ∈ ([x].filterMap (·.asLocal)).foldl putLocal f.locals,
          w.name ≠ e.1 := by
        intro e he w hw
        rcases mem_of_mem_adds hw with hw | hw
        · exact fresh e he w hw
        · have hx : x.name = name := congrArg Prod.fst place
          intro same
          exact hname (List.mem_map.mpr ⟨e, he, same.symm.trans (hw.trans hx)⟩)
      have ih := ih typed after.sound (after.document.trans hd) (by rw [after.room]; exact room)
        takes.held here free fresh' distinct
      show Yields _ (addLocals entry ((.text name, v) :: Ledger.texts rest)) s _ _
      rw [addLocals_cons, Yields, Runs.bind_iff, Runs, hrun]
      refine Runs.mono ih (fun _ u h => ⟨after.trans h.1, ?_⟩) fun _ _ h => h.2.elim
      rw [later]
      exact ⟨by rw [List.map_cons, List.map_cons, place, h.2.1], takes.trans h.2.2⟩

/-! ## What is left of it -/

/-- The last of the locals at its offset. -/
def LastAtOffset (added : List LocalVariable) (w : LocalVariable) : Prop :=
  ∃ before after, added = before ++ w :: after ∧ ∀ u ∈ after, u.stackOffset ≠ w.stackOffset

/-- Of locals with names of their own, those are left that are the last at their offset. -/
theorem mem_foldl_putLocal_iff {added : List LocalVariable} (distinct : (added.map (·.name)).Nodup)
    {w : LocalVariable} : w ∈ added.foldl putLocal [] ↔ LastAtOffset added w := by
  rw [mem_foldl_putLocal fun _ => Iff.rfl, foldl_layOver, List.filter_nil, List.nil_append,
    mem_survivors_iff, LastAtOffset]
  refine exists_congr fun before => exists_congr fun after => and_congr_right fun hadded => ?_
  refine forall₂_congr fun u hu => ?_
  have named : u.name ≠ w.name := by
    intro same
    rw [hadded, List.map_append, List.map_cons] at distinct
    have apart := List.nodup_cons.mp (List.nodup_append.mp distinct).2.1
    exact apart.1 (List.mem_map.mpr ⟨u, hu, same⟩)
  have other : (w.name != u.name) = true := by simpa using named.symm
  rw [LocalVariable.meets, other, Bool.true_and, Bool.not_eq_false', bne_iff_ne]
  exact ne_comm

theorem nodup_asLocal {taken : List TakenLocal} (h : (taken.map (·.name)).Nodup) :
    ((taken.filterMap (·.asLocal)).map (·.name)).Nodup := by
  have sub : ((taken.filterMap (·.asLocal)).map (·.name)).Sublist (taken.map (·.name)) := by
    induction taken with
    | nil => exact .refl _
    | cons x taken ih =>
        have later := ih (List.nodup_cons.mp h).2
        by_cases blank : Text.isBlankText x.name = true
        · simpa [TakenLocal.asLocal, blank] using later.cons x.name
        · simpa [TakenLocal.asLocal, blank] using later.cons_cons x.name
  exact h.sublist sub

/-- What adding the locals of a definition comes to: each choice is taken up with the type it is
resolved to in its turn, and the function is left with the last of them at each offset. -/
structure LocalsSet (entry : Int) (f : Function) (chosen : List (String × Variable))
    (taken : List TakenLocal) (s t : Session) : Prop where
  each : taken.map (·.place) = chosen.map fun e => (e.1, e.2.storage.stackOffset)
  function : ∃ locals, t.program.function? entry = some { f with locals } ∧ InOrder locals ∧
    ∀ w, w ∈ locals ↔ LastAtOffset (taken.filterMap (·.asLocal)) w
  elsewhere : ∀ other, other ≠ entry → t.program.function? other = s.program.function? other
  journal : t.journal.toList = s.journal.toList ++ taken.flatMap (·.notices f.name)

theorem TakesOn.localsSet {chosen : List (String × Variable)} {taken : List TakenLocal}
    (h : TakesOn entry f taken s t) (bare : f.locals = [])
    (each : taken.map (·.place) = chosen.map fun e => (e.1, e.2.storage.stackOffset))
    (distinct : (chosen.map (·.1)).Nodup) : LocalsSet entry f chosen taken s t := by
  have names : taken.map (·.name) = chosen.map (·.1) := by
    have named := congrArg (List.map Prod.fst) each
    rwa [List.map_map, List.map_map] at named
  refine ⟨each, ⟨_, h.held, ?_, fun w => ?_⟩, fun other hne => ?_, h.journal⟩
  · rw [bare]
    exact InOrder.foldl_putLocal List.Pairwise.nil _
  · rw [bare]
    exact mem_foldl_putLocal_iff (nodup_asLocal (names ▸ distinct))
  · rw [Program.function?, h.functions, Ledger.get?_put, if_neg]
    · rfl
    · exact fun same => hne (of_decide_eq_true same).symm

/-- The room to resolve the locals of a definition. -/
def localsNeed (document : Document) (d : FunctionDefinition) : Nat :=
  d.locals.foldr (fun v n => max (3 + nodeNeed (tableNeed document) v.type.height) n) reportingCalls

theorem le_localsNeed (document : Document) (d : FunctionDefinition) :
    reportingCalls ≤ localsNeed document d ∧ ∀ v ∈ d.locals,
      3 + nodeNeed (tableNeed document) v.type.height ≤ localsNeed document d := by
  rw [localsNeed]
  induction d.locals with
  | nil => exact ⟨Nat.le_refl _, fun _ hv => absurd hv List.not_mem_nil⟩
  | cons v rest ih =>
      obtain ⟨reports, each⟩ := ih
      refine ⟨Nat.le_trans reports (Nat.le_max_right _ _), ?_⟩
      intro w hw
      cases hw with
      | head => exact Nat.le_max_left _ _
      | tail _ hw => exact Nat.le_trans (each w hw) (Nat.le_max_right _ _)

/-- A function without locals, whose parameters are among those named, gets of the variables of a
definition the last of each name, and of these the last at each offset. -/
theorem setLocalsBeside_sets (hs : s.Sound) (typed : Document.WellTypedFunction d)
    (room : s.room.allows (localsNeed s.document d) = true)
    (held : s.program.function? entry = some f) (here : f.entry.value = entry)
    (bare : f.locals = []) (given : ∀ q ∈ f.parameters, Json.text q.name ∈ parameters) :
    let chosen := localChoices parameters d
    ∃ t, setLocalsBeside parameters entry d s = (.ok (), t) ∧
      LocalsSet entry f chosen (takenLocals entry chosen s) s t := by
  intro chosen
  obtain ⟨reports, needs⟩ := le_localsNeed s.document d
  have fits : ∀ e ∈ chosen, e.2.type.WellTyped ∧
      3 + nodeNeed (tableNeed s.document) e.2.type.height ≤ localsNeed s.document d := by
    intro e he
    have hlocal := (mem_localChoices he).1
    exact ⟨(typed.locals e.2 hlocal).2, needs e.2 hlocal⟩
  have free : ∀ e ∈ chosen, ∀ q ∈ f.parameters, q.name ≠ e.1 := by
    intro e he q hq same
    exact not_mem_of_localName (mem_localChoices he).2 (same ▸ given q hq)
  have fresh : ∀ e ∈ chosen, ∀ w ∈ f.locals, w.name ≠ e.1 := by
    simp [bare]
  have distinct : (chosen.map (·.1)).Nodup := nodup_names_latest _
  obtain ⟨⟨⟩, t, hrun, -, each, takes⟩ :=
    (addLocals_all fits reports hs rfl room held here free fresh distinct).exists_ok
  refine ⟨t, ?_, takes.localsSet bare each distinct⟩
  rw [setLocalsBeside_eq typed, entries_stackLocalsBeside fun v hv => (typed.locals v hv).1]
  exact hrun

def stackVariable (serial : Nat) (name : String) (offset : Int) (type : Document.BuiltInClass) :
    Variable where
  common := { serial, name := .text name }
  scope := .local_
  storage :=
    { kind := .stack, globalLocation := .nil, globalAddress := -1, register := .null,
      registerClass := .null, dbxRegister := -1, registerIndex := -1, isByReference := false,
      stackOffset := offset }
  type := .builtIn { serial := serial + 1 } type

/-- A name that comes twice, two names at one offset, a blank one and that of a parameter. -/
def crowdedFunction : FunctionDefinition where
  common := { serial := 0, name := .text "main" }
  low := .int 16
  high := .int 32
  relativePath := .null
  type :=
    { common := { serial := 1 }, returnType := none, parameters := none, modifier := .null,
      isConstructor := false, vtableIndex := -1 }
  locals :=
    [stackVariable 2 "x" 4 .signed32, stackVariable 4 "y" 8 .signed32,
     stackVariable 6 "x" 8 .signed16, stackVariable 8 " " 12 .signed32,
     stackVariable 10 "p" 16 .signed32, stackVariable 12 "z" (-4) .signed8]
  lineNumbers := []
  breadcrumbs := []

def crowdedEntry : Function :=
  { name := "main", entry := .ofInt 16, body := (.ofInt 16, .whole (.ofInt 31)),
    parameters := [{ name := "p", type := 0 }] }

def crowdedSession : Session :=
  { document := {}, program := { functions := ⟨[(16, crowdedEntry)]⟩ } }

theorem crowdedFunction_wellTyped : Document.WellTypedFunction crowdedFunction where
  name := .inr ⟨"main", rfl⟩
  low := .inr ⟨16, rfl⟩
  high := .inr ⟨32, rfl⟩
  relativePath := .inl rfl
  type := Document.Node.wellTyped_iff.mpr ⟨.inl rfl, by simp [crowdedFunction, Document.Node.parts]⟩
  parameters := nofun
  locals := by
    have typed (serial : Nat) (name : String) (offset : Int) (type : Document.BuiltInClass) :
        Document.WellTypedVariable (stackVariable serial name offset type) :=
      ⟨.inr ⟨name, rfl⟩, Document.Node.wellTyped_builtIn (.inl rfl) _⟩
    simp [crowdedFunction, typed]
  breadcrumbs := nofun

theorem crowdedSession_isNew : crowdedSession.IsNew where
  document := ⟨nofun, nofun⟩
  program := { Program.sound_empty with }
  naming := rfl
  knowsPointerSize := rfl
  table := rfl
  isPrepared := rfl
  cache := rfl
  room := rfl

/-- Of the two at offset 8 the one whose name first stands later is left, and the blank name is
reported. -/
theorem setLocalsBeside_sets_crowded :
    let chosen := localChoices [.text "p"] crowdedFunction
    chosen.map (fun e => (e.1, e.2.storage.stackOffset)) =
        [("x", 8), ("y", 8), (" ", 12), ("z", -4)] ∧
      ∃ t, setLocalsBeside [.text "p"] 16 crowdedFunction crowdedSession = (.ok (), t) ∧
        LocalsSet 16 crowdedEntry chosen (takenLocals 16 chosen crowdedSession) crowdedSession t ∧
        ((t.program.function? 16).map fun f => f.locals.map (·.site)) =
          some [("z", -4), ("y", 8)] ∧
        t.journal.toList = [.diagnostic functionsSource
          "InvalidInputError: local variable of main has no name"] := by
  intro chosen
  obtain ⟨t, hrun, sets⟩ :
      ∃ t, setLocalsBeside [.text "p"] 16 crowdedFunction crowdedSession = (.ok (), t) ∧
        LocalsSet 16 crowdedEntry chosen (takenLocals 16 chosen crowdedSession) crowdedSession t :=
    setLocalsBeside_sets crowdedSession_isNew.sound crowdedFunction_wellTyped (Room.allows_none _)
      rfl rfl rfl (by simp [crowdedEntry])
  have ends : t = (setLocalsBeside [.text "p"] 16 crowdedFunction crowdedSession).2 := by
    rw [hrun]
  refine ⟨by decide +kernel, t, hrun, sets, ?_, ?_⟩
  · rw [ends]
    decide +kernel
  · rw [ends]
    decide +kernel

end Import

end StabsImport

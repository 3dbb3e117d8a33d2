import StabsImport.Proofs.Database

/-!
# Primary symbols and names at an address

A symbol that is put at an address, or a label that is put there again, takes the flag from the
others. When the label that has it is removed, or gives its name to the function there, nobody gets
it. Names are told apart where a label or a function is given one, but not where a function falls
back to its default name. Main statements: `Operation.performAll_symbols` and, for tables that come
out of step, `Operation.performAll_symbols_left`.
-/

namespace StabsImport

/-- How many of the symbols are primary. -/
def primaries (symbols : List Symbol) : Nat := symbols.countP (·.primary)

/-- A label has the name of the function. -/
def Clashes (symbols : List Symbol) (name : String) : Prop :=
  ∃ s ∈ symbols, ∃ t ∈ symbols, s.kind = .label ∧ t.kind = .function ∧ s.name = name ∧ t.name = name

open Program

section Lists

variable {symbols symbols' : List Symbol} {s : Symbol} {name : String}

/-! ## Flags -/

theorem primaries_congr (same : symbols'.map (·.primary) = symbols.map (·.primary)) :
    primaries symbols' = primaries symbols := by
  have count (l : List Symbol) : primaries l = (l.map (·.primary)).countP id := by
    rw [List.countP_map]
    rfl
  rw [count, count, same]

theorem primaries_withSymbol (symbols : List Symbol) (s : Symbol) :
    primaries (withSymbol symbols s) = if s.primary then 1 else primaries symbols := by
  cases h : s.primary <;> simp [primaries, withSymbol, h, List.countP_map, Function.comp_def]

/-- The flag is given to the symbol at one place. -/
theorem primaries_mapIdx {index : Nat} (h : index < symbols.length) :
    primaries (symbols.mapIdx fun i other => { other with primary := i == index }) = 1 := by
  induction symbols generalizing index with
  | nil => simp at h
  | cons head rest ih =>
      rw [List.mapIdx_cons, primaries, List.countP_cons]
      cases index with
      | zero =>
          have others : (rest.mapIdx fun i other =>
              { other with primary := i + 1 == 0 }).countP (·.primary) = 0 := by
            rw [List.countP_eq_zero]
            intro t ht
            obtain ⟨i, _, rfl⟩ := List.mem_mapIdx.mp ht
            simp
          exact congrArg (· + 1) others
      | succ index => simpa [primaries] using ih (Nat.lt_of_succ_lt_succ h)

theorem primaries_modify (symbols : List Symbol) (index : Nat) {f : Symbol → Symbol}
    (hf : ∀ s, (f s).primary = s.primary) :
    primaries (symbols.modify index f) = primaries symbols := by
  refine primaries_congr (List.ext_getElem (by simp) fun i _ _ => ?_)
  simp only [List.getElem_map, List.getElem_modify]
  split
  · exact hf _
  · rfl

theorem primaries_set {index : Nat} {t : Symbol} (hs : symbols[index]? = some s)
    (same : t.primary = s.primary) : primaries (symbols.set index t) = primaries symbols := by
  obtain ⟨hlt, rfl⟩ := List.getElem?_eq_some_iff.mp hs
  refine primaries_congr (List.ext_getElem (by simp) fun i _ _ => ?_)
  simp only [List.getElem_map, List.getElem_set]
  split
  · next h =>
      subst h
      exact same
  · rfl

theorem primaries_withoutSymbol (h : symbols.any (·.same s) = true) :
    primaries (withoutSymbol symbols s) = primaries symbols - if s.primary then 1 else 0 := by
  obtain ⟨t, ht, hts⟩ := List.any_eq_true.mp h
  obtain ⟨u, l₁, l₂, -, hu, hsplit, herase⟩ := List.exists_of_eraseP (p := (·.same s)) ht hts
  have flag : u.primary = s.primary := by
    simp only [Symbol.same, Bool.and_eq_true] at hu
    exact eq_of_beq hu.2
  rw [withoutSymbol, herase, hsplit]
  simp only [primaries, List.countP_append, List.countP_cons, flag]
  omega

/-- Where one symbol is primary at most, labels go with the flag or without it. -/
theorem primaries_filter_not_label (name : String) (one : primaries symbols ≤ 1) :
    primaries (symbols.filter (!isLabelNamed name ·)) =
      if symbols.any fun s => isLabelNamed name s && s.primary then 0 else primaries symbols := by
  have parts := List.countP_eq_countP_filter_add symbols (·.primary) (isLabelNamed name)
  rw [List.countP_filter] at parts
  have labels : (symbols.countP fun s => s.primary && isLabelNamed name s) = 0 ↔
      (symbols.any fun s => isLabelNamed name s && s.primary) = false := by
    simp only [List.countP_eq_zero, List.any_eq_false, Bool.and_comm]
  simp only [primaries] at one ⊢
  split
  · next h =>
      have : (symbols.countP fun s => s.primary && isLabelNamed name s) ≠ 0 := fun h0 => by
        rw [labels.mp h0] at h
        cases h
      omega
  · next h =>
      rw [Bool.not_eq_true] at h
      rw [labels.mpr h] at parts
      omega

/-- A function that has a symbol changes the name of that symbol only. -/
theorem primaries_nameFunctionSymbol (address : Whole) (name : String) (source : SourceKind)
    (known : ∃ s ∈ symbols, s.kind = .function) :
    primaries (nameFunctionSymbol address name source symbols) = primaries symbols := by
  unfold nameFunctionSymbol
  split
  · exact primaries_modify symbols _ fun _ => rfl
  · next hnone =>
      obtain ⟨s, hs, hkind⟩ := known
      have hne := List.findIdx?_eq_none_iff.mp hnone s hs
      simp [hkind] at hne

/-! ## Names -/

theorem SymbolsFit.name_eq {address : Int} {own : String}
    (h : SymbolsFit address (some own) symbols) (hs : s ∈ symbols) (kind : s.kind = .function) :
    s.name = own := by
  have hmem : s.name ∈ (symbols.filter (·.kind == .function)).map (·.name) :=
    List.mem_map_of_mem (List.mem_filter.mpr ⟨hs, by simp [kind]⟩)
  rw [h.functions] at hmem
  exact List.mem_singleton.mp hmem

/-- Two symbols of one name are a label and the function. -/
theorem SymbolsFit.nodup {address : Int} {own : Option String}
    (h : SymbolsFit address own symbols) (apart : ∀ name, ¬ Clashes symbols name) :
    (symbols.map (·.name)).Nodup := by
  have split := List.filter_append_perm (·.kind == SymbolKind.label) symbols
  have others : symbols.filter (fun s => !s.kind == .label) =
      symbols.filter (·.kind == .function) :=
    List.filter_congr fun s _ => by cases s.kind <;> rfl
  rw [others] at split
  refine (split.map (·.name)).nodup_iff.mp ?_
  rw [List.map_append, List.nodup_append, h.functions]
  refine ⟨h.labels, by cases own <;> simp, ?_⟩
  rintro name hname _ hown rfl
  obtain ⟨s, hs, rfl⟩ := List.mem_map.mp hname
  rw [← h.functions] at hown
  obtain ⟨t, ht, hts⟩ := List.mem_map.mp hown
  simp only [List.mem_filter, beq_iff_eq] at hs ht
  exact apart s.name ⟨s, hs.1, t, ht.1, hs.2, ht.2, rfl, hts⟩

theorem Clashes.of_tags (h : Clashes symbols' name)
    (same : symbols'.map (·.tag) = symbols.map (·.tag)) : Clashes symbols name := by
  have find {s : Symbol} (hs : s ∈ symbols') :
      ∃ u ∈ symbols, u.kind = s.kind ∧ u.name = s.name := by
    have hmem : s.tag ∈ symbols.map (·.tag) := same ▸ List.mem_map_of_mem hs
    obtain ⟨u, hu, htag⟩ := List.mem_map.mp hmem
    simp only [Symbol.tag, Prod.mk.injEq] at htag
    exact ⟨u, hu, htag.2⟩
  obtain ⟨s, hs, t, ht, hlabel, hfunction, hsname, htname⟩ := h
  obtain ⟨u, hu, hukind, huname⟩ := find hs
  obtain ⟨v, hv, hvkind, hvname⟩ := find ht
  exact ⟨u, hu, v, hv, hukind.trans hlabel, hvkind.trans hfunction, huname.trans hsname,
    hvname.trans htname⟩

theorem Clashes.of_sublist (h : Clashes symbols' name) (sub : symbols'.Sublist symbols) :
    Clashes symbols name := by
  obtain ⟨s, hs, t, ht, h⟩ := h
  exact ⟨s, sub.mem hs, t, sub.mem ht, h⟩

/-- A new label clashes with nothing. -/
theorem Clashes.of_withLabel (h : Clashes (withSymbol symbols s) name) (kind : s.kind = .label)
    (fresh : ∀ t ∈ symbols, t.name ≠ s.name) : Clashes symbols name := by
  have h : Clashes (symbols ++ [s]) name := h.of_tags (SymbolsFit.tags_withSymbol symbols s)
  obtain ⟨u, hu, t, ht, hlabel, hfunction, huname, htname⟩ := h
  have ht : t ∈ symbols := by
    refine (List.mem_append.mp ht).resolve_right fun ht => ?_
    rw [List.mem_singleton.mp ht, kind] at hfunction
    cases hfunction
  refine ⟨u, (List.mem_append.mp hu).resolve_right fun hu => ?_, t, ht, hlabel, hfunction, huname,
    htname⟩
  rw [List.mem_singleton.mp hu] at huname
  exact fresh t ht (htname.trans huname.symm)

/-- What clashes with the function has its name. -/
theorem Clashes.of_function {address : Int} {own : String} (h : Clashes symbols' name)
    (fit : SymbolsFit address (some own) symbols') (symbols : List Symbol)
    (labels : ∀ s ∈ symbols', s.kind = .label → ∃ u ∈ symbols, isLabelNamed s.name u = true) :
    name = own ∧ symbols.any (isLabelNamed own) = true := by
  obtain ⟨s, hs, t, ht, hlabel, hfunction, rfl, htname⟩ := h
  have hown : s.name = own := htname.symm.trans (fit.name_eq ht hfunction)
  rw [← hown]
  exact ⟨rfl, List.any_eq_true.mpr (labels s hs hlabel)⟩

/-! ## Symbols of functions -/

/-- The symbol of a new function takes the flag from all labels. -/
theorem not_any_label_withSymbol (symbols : List Symbol) (name : String)
    (primary : s.primary = true) (kind : s.kind = .function) :
    ((withSymbol symbols s).any fun t => isLabelNamed name t && t.primary) = false := by
  simp [withSymbol, primary, isLabelNamed, kind]

/-- A new function clashes with a label that has its name already. -/
theorem Clashes.of_withFunction {address : Int} {own : String}
    (h : Clashes (withSymbol symbols s) name)
    (fit : SymbolsFit address (some own) (withSymbol symbols s)) (kind : s.kind = .function) :
    name = own ∧ symbols.any (isLabelNamed own) = true := by
  refine h.of_function fit symbols fun t ht hlabel => ?_
  rcases List.mem_append.mp ht with ht | ht
  · split at ht
    · obtain ⟨u, hu, rfl⟩ := List.mem_map.mp ht
      exact ⟨u, hu, by simpa [isLabelNamed] using hlabel⟩
    · exact ⟨t, ht, by simp [isLabelNamed, hlabel]⟩
  · rw [List.mem_singleton.mp ht, kind] at hlabel
    cases hlabel

theorem SymbolsFit.exists_function {address : Int} {own : Option String}
    (h : SymbolsFit address own symbols) (known : own.isSome = true) :
    ∃ s ∈ symbols, s.kind = .function := by
  obtain ⟨name, rfl⟩ := Option.isSome_iff_exists.mp known
  have hmem : name ∈ (symbols.filter (·.kind == .function)).map (·.name) := by
    rw [h.functions]
    exact List.mem_singleton_self name
  obtain ⟨s, hs, -⟩ := List.mem_map.mp hmem
  simp only [List.mem_filter, beq_iff_eq] at hs
  exact ⟨s, hs⟩

theorem mem_of_mem_nameFunctionSymbol {address : Whole} {source : SourceKind}
    (known : ∃ t ∈ symbols, t.kind = .function) (kind : s.kind = .label)
    (hs : s ∈ nameFunctionSymbol address name source symbols) : s ∈ symbols := by
  unfold nameFunctionSymbol at hs
  split at hs
  · next index hi =>
      obtain ⟨hlt, hfunction, -⟩ := List.findIdx?_eq_some_iff_getElem.mp hi
      obtain ⟨i, hi, rfl⟩ := List.getElem_of_mem hs
      rw [List.getElem_modify] at kind ⊢
      split at kind
      · next h =>
          subst h
          rw [kind] at hfunction
          cases hfunction
      · next h =>
          rw [if_neg h]
          exact List.getElem_mem _
  · next hnone =>
      obtain ⟨t, ht, hfunction⟩ := known
      have hne := List.findIdx?_eq_none_iff.mp hnone t ht
      simp [hfunction] at hne

/-- The symbols at an address after the function there has been renamed. -/
def renamed (address : Whole) (name : String) (source : SourceKind) (symbols : List Symbol) :
    List Symbol :=
  nameFunctionSymbol address name source (symbols.filter (!isLabelNamed name ·))

theorem exists_function_filter (name : String) (known : ∃ s ∈ symbols, s.kind = .function) :
    ∃ s ∈ symbols.filter (!isLabelNamed name ·), s.kind = .function := by
  obtain ⟨s, hs, hkind⟩ := known
  exact ⟨s, List.mem_filter.mpr ⟨hs, by simp [isLabelNamed, hkind]⟩, hkind⟩

/-- The flag goes with the label that gives its name to the function. -/
theorem primaries_renamed (address : Whole) (name : String) (source : SourceKind)
    (known : ∃ s ∈ symbols, s.kind = .function) (one : primaries symbols ≤ 1) :
    primaries (renamed address name source symbols) =
      if symbols.any fun s => isLabelNamed name s && s.primary then 0 else primaries symbols := by
  rw [renamed, primaries_nameFunctionSymbol _ _ _ (exists_function_filter name known),
    primaries_filter_not_label name one]

/-- A function that is given a name has it alone. -/
theorem not_clashes_renamed {address : Whole} {own : Option String} {given : String}
    (fit : SymbolsFit address.value own symbols) (known : own.isSome = true) (source : SourceKind) :
    ¬ Clashes (renamed address given source symbols) name := by
  intro h
  have hknown := exists_function_filter given (fit.exists_function known)
  obtain ⟨-, hlabel⟩ := h.of_function (fit.named known address given source)
    (symbols.filter (!isLabelNamed given ·)) fun s hs hkind =>
      ⟨s, mem_of_mem_nameFunctionSymbol hknown hkind hs, by simp [isLabelNamed, hkind]⟩
  obtain ⟨s, hs, hname⟩ := List.any_eq_true.mp hlabel
  have hne := (List.mem_filter.mp hs).2
  rw [hname] at hne
  cases hne

end Lists

/-! ## Operations -/

/-- What becomes of the flag at an address: a symbol gets it, or the label that has it goes. -/
inductive FlagMove where
  | given
  | lost
  deriving DecidableEq, Repr

/-- How many symbols have the flag afterwards; no move leaves it where it is. -/
def FlagMove.count : Option FlagMove → Nat → Nat
  | some given, _ => 1
  | some lost, _ => 0
  | none, n => n

namespace Operation

/-- Whether a function has come to an address. -/
def appears (address : Int) (p q : Program) : Bool :=
  !p.functions.contains address && q.functions.contains address

/-- What an operation does to the flag at an address. -/
def flagMove (address : Int) (p : Program) (o : Operation) : Option FlagMove :=
  match o with
  | createFunction .. => if appears address p (perform p o) then some .given else none
  | renameFunction entry name _ =>
      match checkName name with
      | .ok name =>
          if entry = address ∧ p.functions.contains entry ∧
              (p.symbolsAt address).any fun s => isLabelNamed name s && s.primary
          then some .lost
          else none
      | .error _ => none
  | removeSymbol a index =>
      match (p.symbolsAt a)[index]? with
      | some s => if a = address ∧ s.kind = .label ∧ s.primary then some .lost else none
      | none => none
  | removeLabel label =>
      if label.address.value = address ∧ label.primary ∧
          (p.symbolsAt address).any (·.same { label with kind := .label })
      then some .lost
      else none
  | createLabel a name makePrimary =>
      if a.value = address ∧ makePrimary ∧ (checkName name).isOk then some .given else none
  | setFunctionComment .. | setComment .. | createData .. => none

/-- Whether the function at an address falls back to its default name, or starts with it, where a
label has that name. -/
def fallsBack (address : Int) (p : Program) (o : Operation) : Bool :=
  (match o with
    | createFunction name .. =>
        appears address p (perform p o) && !(name.holds && (checkName name).isOk)
    | removeSymbol a index => a == address && (p.symbolsAt a)[index]?.any (·.kind == .function)
    | _ => false) &&
    (p.symbolsAt address).any (isLabelNamed (defaultName address))

/-- Whether a label, if the operation makes one, is made with the flag. -/
def makesPrimary : Operation → Bool
  | createLabel _ _ makePrimary => makePrimary
  | _ => true

/-- The symbols at an address after the flag there has moved or not, the function there has fallen
back on the name of a label or not, and no label has been put there without the flag. -/
structure Turns (address : Int) (move : Option FlagMove) (falls isPlain : Bool) (p q : Program) :
    Prop where
  primaries : primaries (q.symbolsAt address) =
    FlagMove.count move (primaries (p.symbolsAt address))
  clashes : ∀ name, Clashes (q.symbolsAt address) name →
    Clashes (p.symbolsAt address) name ∨ name = defaultName address ∧ falls = true
  first : isPlain = false → p.symbolsAt address = [] → move = none → q.symbolsAt address = []

variable {p q : Program} {blocks : List (Int × Int)} {address : Int} {falls isPlain : Bool}

theorem Turns.of_eq (same : q.symbolsAt address = p.symbolsAt address) :
    Turns address none falls isPlain p q where
  primaries := by rw [same, FlagMove.count]
  clashes name h := .inl (same ▸ h)
  first _ hp _ := same.trans hp

theorem Turns.of_ne {a : Whole} (symbols : List Symbol) (h : a.value ≠ address)
    (same : q.symbols = (p.setSymbols a symbols).symbols) :
    Turns address none falls isPlain p q := by
  refine .of_eq ?_
  rw [← symbolsAt_setSymbols_of_ne p symbols (Ne.symm h), symbolsAt, same, symbolsAt]

/-- A label goes, with the flag or without it. -/
theorem Turns.of_withoutSymbol {s : Symbol} (one : StabsImport.primaries (p.symbolsAt address) ≤ 1)
    (held : (p.symbolsAt address).any (·.same s) = true)
    (same : q.symbolsAt address = withoutSymbol (p.symbolsAt address) s) :
    Turns address (if s.primary then some .lost else none) falls isPlain p q where
  primaries := by
    rw [same, primaries_withoutSymbol held]
    cases s.primary with
    | true => exact Nat.sub_eq_zero_of_le one
    | false => rfl
  clashes name h := by
    rw [same] at h
    exact .inl (h.of_sublist List.eraseP_sublist)
  first _ hp _ := by
    rw [hp] at held
    cases held

/-- A function falls back to its default name. -/
theorem Turns.of_defaultSymbol {s : Symbol} {index : Nat} (h : p.Consistent blocks)
    (hs : (p.symbolsAt address)[index]? = some s) (kind : s.kind = .function)
    (told : (p.symbolsAt address).any (isLabelNamed (defaultName address)) = true → falls = true)
    (same : q.symbolsAt address = (p.symbolsAt address).set index (defaultSymbol address s)) :
    Turns address none falls isPlain p q where
  primaries := by
    rw [same, primaries_set hs (t := defaultSymbol address s) rfl]
    rfl
  clashes name hclash := by
    rw [same] at hclash
    obtain ⟨hname, hlabel⟩ := hclash.of_function ((h.symbols.fit address).reset hs kind)
      (p.symbolsAt address) fun u hu hulabel => by
        rcases List.mem_or_eq_of_mem_set hu with hu | rfl
        · exact ⟨u, hu, by simp [isLabelNamed, hulabel]⟩
        · rw [defaultSymbol, kind] at hulabel
          cases hulabel
    exact .inr ⟨hname, told hlabel⟩
  first _ hp _ := by simp [hp] at hs

/-- However the edit ends, the symbols at the address turn as the operation says. -/
def TurnsBy {α : Type} (address : Int) (o : Operation) (p : Program) (m : Edit α) : Prop :=
  Runs m p
    (fun _ q => Turns address (o.flagMove address p) (o.fallsBack address p) (!o.makesPrimary) p q)
    fun _ q => Turns address (o.flagMove address p) (o.fallsBack address p) (!o.makesPrimary) p q

theorem createLabel_turns (a : Whole) (name : Json) (makePrimary : Bool) :
    TurnsBy address (createLabel a name makePrimary) p
      (Program.createLabel a name makePrimary) := by
  rw [TurnsBy, Program.createLabel, Runs.bind_iff, runs_ofResult]
  split
  · next name' hname =>
      have move : (createLabel a name makePrimary).flagMove address p =
          if a.value = address ∧ makePrimary then some .given else none := by
        simp [flagMove, hname, Except.isOk, Except.toBool]
      rw [Runs.bind_iff, Runs.get_iff, move]
      by_cases ha : a.value = address
      · subst ha
        simp only [true_and]
        split
        · next index hi =>
            obtain ⟨hlt, -⟩ := List.findIdx?_eq_some_iff_getElem.mp hi
            split
            · refine ⟨?_, fun name h => .inl ?_, fun _ _ moved => by cases moved⟩
              · rw [symbolsAt_setSymbols_self]
                exact primaries_mapIdx hlt
              · rw [symbolsAt_setSymbols_self] at h
                refine h.of_tags (List.ext_getElem (by simp) fun i _ _ => ?_)
                simp [Symbol.tag]
            · exact Turns.of_eq rfl
        · next hnone =>
            have fresh (t) (ht : t ∈ p.symbolsAt a.value) : t.name ≠ name' := by
              simpa using List.findIdx?_eq_none_iff.mp hnone t ht
            refine ⟨?_, fun name h => .inl ?_, fun hplain _ hmove => ?_⟩
            · rw [symbolsAt_setSymbols_self, primaries_withSymbol]
              split <;> rfl
            · rw [symbolsAt_setSymbols_self] at h
              exact h.of_withLabel rfl fresh
            · simp only [makesPrimary, Bool.not_eq_false'] at hplain
              simp [hplain] at hmove
      · simp only [ha, false_and, if_false]
        split
        · split
          · exact .of_ne _ ha rfl
          · exact Turns.of_eq rfl
        · exact .of_ne _ ha rfl
  · next e hname =>
      have move : (createLabel a name makePrimary).flagMove address p = none := by
        simp [flagMove, hname, Except.isOk, Except.toBool]
      rw [move]
      exact .of_eq rfl

theorem removeSymbolAt_turns (h : p.Consistent blocks)
    (one : primaries (p.symbolsAt address) ≤ 1) (a : Int) (index : Nat) :
    TurnsBy address (removeSymbol a index) p (removeSymbolAt a index) := by
  rw [TurnsBy, removeSymbolAt, Runs.modify_iff]
  dsimp only
  cases hs : (p.symbolsAt a)[index]? with
  | none =>
      simp only [flagMove, hs]
      exact .of_eq rfl
  | some s =>
      have here := (h.symbols.fit a).here s (List.mem_of_getElem? hs)
      simp only [flagMove, hs]
      by_cases ha : a = address
      · subst ha
        simp only [true_and]
        cases hkind : s.kind with
        | label =>
            simp only [true_and]
            refine .of_withoutSymbol one ?_ ?_
            · exact List.any_eq_true.mpr ⟨s, List.mem_of_getElem? hs, by simp [Symbol.same]⟩
            · rw [← here]
              exact symbolsAt_setSymbols_self ..
        | function =>
            refine .of_defaultSymbol h hs hkind (fun told => ?_) ?_
            · simp [fallsBack, told, hs, hkind]
            · rw [← here]
              exact symbolsAt_setSymbols_self p s.address _
      · have away : s.address.value ≠ address := fun h => ha (here.symm.trans h)
        simp only [ha, false_and, if_false]
        split
        · exact .of_ne _ away rfl
        · exact .of_ne _ away rfl

theorem removeLabel_turns (one : primaries (p.symbolsAt address) ≤ 1) (label : Symbol) :
    TurnsBy address (removeLabel label) p
      (Program.removeSymbol { label with kind := .label }) := by
  rw [TurnsBy, Program.removeSymbol, Runs.modify_iff]
  simp only [flagMove]
  by_cases ha : label.address.value = address
  · subst ha
    by_cases held : (p.symbolsAt label.address.value).any (·.same { label with kind := .label }) =
        true
    · simp only [held, if_true, true_and, and_true]
      exact .of_withoutSymbol (s := { label with kind := .label }) one held
        (symbolsAt_setSymbols_self p label.address _)
    · rw [Bool.not_eq_true] at held
      simp only [held, Bool.false_eq_true, and_false, if_false]
      exact .of_eq rfl
  · simp only [ha, false_and, if_false]
    split
    · exact .of_ne _ ha rfl
    · exact .of_eq rfl

/-- What renaming does to the symbols, and that it makes no function. -/
theorem renameFunction_symbolsAt (h : p.Consistent blocks) {entry : Int}
    (known : p.functions.contains entry = true) (name : Json) (source : SourceKind) :
    Runs (Program.renameFunction entry name source) p
      (fun _ q => ∃ given, checkName name = .ok given ∧
        (∀ address, q.functions.contains address = p.functions.contains address) ∧
        (∃ spelled : Whole, spelled.value = entry ∧
          q.symbolsAt entry = renamed spelled given source (p.symbolsAt entry)) ∧
        ∀ address ≠ entry, q.symbolsAt address = p.symbolsAt address)
      fun e q => checkName name = .error e ∧ q = p := by
  obtain ⟨f, hf⟩ := Option.isSome_iff_exists.mp known
  have hf : p.function? entry = some f := hf
  have here := h.entry_eq hf
  rw [Program.renameFunction, Runs.bind_iff, runs_ofResult]
  split
  · next given hname =>
      rw [Runs.bind_iff, Runs.get_iff, hf, editFunction]
      subst here
      refine ⟨given, hname, fun address => ?_, ⟨f.entry, rfl, ?_⟩, fun address ha => ?_⟩
      · show (p.functions.update f.entry.value _).contains address = _
        simp only [Ledger.contains, Ledger.get?_update]
        split
        · exact Option.isSome_map
        · rfl
      · exact symbolsAt_setSymbols_self p f.entry _
      · exact symbolsAt_setSymbols_of_ne p _ ha
  · next e hname => exact ⟨hname, rfl⟩

theorem renameFunction_turns (h : p.Consistent blocks)
    (one : primaries (p.symbolsAt address) ≤ 1) {entry : Int}
    (known : p.functions.contains entry = true) (name : Json) (source : SourceKind) :
    TurnsBy address (renameFunction entry name source) p
      (Program.renameFunction entry name source) := by
  refine (renameFunction_symbolsAt h known name source).mono ?_ ?_
  · rintro _ q ⟨given, hname, -, ⟨spelled, rfl, here⟩, away⟩
    simp only [flagMove, hname, known, true_and]
    by_cases ha : spelled.value = address
    · subst ha
      have fit := h.symbols.fit spelled.value
      have knows : ((p.function? spelled.value).map (·.name)).isSome = true := by
        rw [Option.isSome_map]
        exact known
      refine ⟨?_, fun name hclash => ?_, fun _ hnil _ => ?_⟩
      · rw [here, primaries_renamed _ _ _ (fit.exists_function knows) one]
        simp only [true_and]
        split <;> rfl
      · rw [here] at hclash
        exact absurd hclash (not_clashes_renamed fit knows source)
      · obtain ⟨s, hs, -⟩ := fit.exists_function knows
        rw [hnil] at hs
        cases hs
    · simp only [ha, false_and, if_false]
      exact .of_eq (away address (Ne.symm ha))
  · rintro e q ⟨hname, rfl⟩
    simp only [flagMove, hname]
    exact .of_eq rfl

/-- A function stands where none did, under its default name. -/
structure Placed (blocks : List (Int × Int)) (entry : Whole) (p q : Program) : Prop where
  consistent : q.Consistent blocks
  free : p.functions.contains entry.value = false
  named : (q.function? entry.value).map (·.name) = some (defaultName entry.value)
  others : ∀ a ≠ entry.value, q.functions.contains a = p.functions.contains a
  here : q.symbolsAt entry.value = withSymbol (p.symbolsAt entry.value)
    { address := entry, name := defaultName entry.value, kind := .function, source := .default,
      primary := true }
  away : ∀ a ≠ entry.value, q.symbolsAt a = p.symbolsAt a

theorem Placed.known {entry : Whole} (h : Placed blocks entry p q) :
    q.functions.contains entry.value = true := by
  have some := congrArg Option.isSome h.named
  rwa [Option.isSome_map] at some

/-- A run that makes a function is refused, or the function is placed and then gets its own name. -/
theorem createFunction_places (h : p.Consistent blocks) {name : Json} {entry : Whole}
    {body : Option (Whole × Bound)} {source : SourceKind} {ok : Unit → Program → Prop}
    {bad : Fault → Program → Prop} (refused : ∀ e, bad e p)
    (placed : ∀ q, Placed blocks entry p q →
      Runs (if name.holds then Program.renameFunction entry.value name source else pure ()) q ok
        bad) : Runs (Program.createFunction name entry body source) p ok bad := by
  refine runs_createFunction refused fun fits => placed _ ?_
  refine ⟨h.place fits, fits.free, ?_, fun a ha => ?_, ?_, fun a ha => ?_⟩
  · rw [function?_placeFunction]
    rfl
  · simp only [placeFunction, Program.setSymbols, Ledger.contains]
    rw [Ledger.get?_put_of_not_same _ _ (decide_eq_false ha)]
  · exact symbolsAt_setSymbols_self _ _ _
  · exact symbolsAt_setSymbols_of_ne _ _ ha

/-- What a function that has just been placed does to its address: `named` if it gets a name of its
own. -/
theorem Turns.of_placed {q₀ : Program} {entry : Whole} {named : Bool}
    (placed : Placed blocks entry p q₀)
    (stays : ∀ a, q.functions.contains a = q₀.functions.contains a)
    (away : ∀ a ≠ entry.value, q.symbolsAt a = q₀.symbolsAt a)
    (one : StabsImport.primaries (q.symbolsAt entry.value) = 1)
    (told : ∀ name, Clashes (q.symbolsAt entry.value) name →
      Clashes (q₀.symbolsAt entry.value) name ∧ named = false) :
    Turns address (if appears address p q then some .given else none)
      ((appears address p q && !named) &&
        (p.symbolsAt address).any (isLabelNamed (defaultName address))) isPlain p q := by
  by_cases ha : address = entry.value
  · subst ha
    have made : appears entry.value p q = true := by
      simp [appears, placed.free, stays, placed.known]
    refine ⟨?_, fun name h => .inr ?_, fun _ _ hmove => ?_⟩
    · rw [one, made]
      rfl
    · obtain ⟨hclash, hnamed⟩ := told name h
      have fit := placed.consistent.symbols.fit entry.value
      rw [placed.named, placed.here] at fit
      rw [placed.here] at hclash
      obtain ⟨hname, hlabel⟩ := hclash.of_withFunction fit rfl
      exact ⟨hname, by simp [made, hlabel, hnamed]⟩
    · rw [made] at hmove
      cases hmove
  · have stays : appears address p q = false := by simp [appears, stays, placed.others address ha]
    simp only [stays, Bool.false_eq_true, if_false]
    exact .of_eq ((away address ha).trans (placed.away address ha))

theorem createFunction_turns (h : p.Consistent blocks) (name : Json) (entry : Whole)
    (body : Option (Whole × Bound)) (source : SourceKind) :
    Runs (Program.createFunction name entry body source) p
      (fun _ q => Turns address (if appears address p q then some .given else none)
        ((appears address p q && !(name.holds && (checkName name).isOk)) &&
          (p.symbolsAt address).any (isLabelNamed (defaultName address))) isPlain p q)
      fun _ q => Turns address (if appears address p q then some .given else none)
        ((appears address p q && !(name.holds && (checkName name).isOk)) &&
          (p.symbolsAt address).any (isLabelNamed (defaultName address))) isPlain p q := by
  refine createFunction_places h (fun _ => ?_) fun q placed => ?_
  · have stays : appears address p p = false := by simp [appears]
    simp only [stays, Bool.false_eq_true, if_false]
    exact .of_eq rfl
  have one : StabsImport.primaries (q.symbolsAt entry.value) = 1 := by
    rw [placed.here, primaries_withSymbol]
    rfl
  by_cases hname : name.holds = true
  · rw [if_pos hname]
    refine (renameFunction_symbolsAt placed.consistent placed.known name source).mono ?_ ?_
    · rintro _ r ⟨given, hgiven, stays, ⟨spelled, hspelled, here⟩, away⟩
      have fit := placed.consistent.symbols.fit entry.value
      have knows : ((q.function? entry.value).map (·.name)).isSome = true := by
        rw [placed.named]
        rfl
      refine .of_placed placed stays away ?_ fun name hclash => ?_
      · rw [here, primaries_renamed _ _ _ (fit.exists_function knows) (Nat.le_of_eq one),
          placed.here, not_any_label_withSymbol _ _ rfl rfl, ← placed.here, one]
        rfl
      · rw [here] at hclash
        exact absurd hclash (not_clashes_renamed (hspelled ▸ fit) knows source)
    · rintro e r ⟨hrefused, rfl⟩
      exact .of_placed placed (fun _ => rfl) (fun _ _ => rfl) one fun _ h =>
        ⟨h, by simp [hrefused, Except.isOk, Except.toBool]⟩
  · rw [if_neg hname]
    exact .of_placed placed (fun _ => rfl) (fun _ _ => rfl) one fun _ h => ⟨h, by simp [hname]⟩

theorem createData_symbolsAt (p : Program) (a : Int) (type : TypeId) (length : Int)
    (clear : Bool) : Runs (Program.createData a type length clear) p
      (fun _ q => q.symbolsAt address = p.symbolsAt address)
      fun _ q => q.symbolsAt address = p.symbolsAt address := by
  rw [Program.createData, Runs.bind_iff, Runs.get_iff]
  dsimp only
  rw [Runs.ite_iff]
  split
  · rw [Runs.bind_iff, typeName, runs_view]
    split <;> rfl
  · rw [Runs.ite_iff]
    split
    · rfl
    · split
      · rfl
      · split <;> rfl

/-- What one operation does to the flag and the names at an address. -/
theorem perform_turns (h : p.Consistent blocks) (one : primaries (p.symbolsAt address) ≤ 1)
    (o : Operation) :
    Turns address (o.flagMove address p) (o.fallsBack address p) (!o.makesPrimary) p
      (perform p o) := by
  cases o with
  | createFunction name entry body source =>
      exact (createFunction_turns h name entry body source).snd
  | renameFunction entry name source =>
      have run : TurnsBy address (renameFunction entry name source) p
          (renameFunction entry name source).edit := by
        rw [TurnsBy, edit, Runs.bind_iff, Runs.get_iff, Runs.ite_iff]
        split
        · next known => exact renameFunction_turns h one known name source
        · next unknown =>
            have unmoved : (renameFunction entry name source).flagMove address p = none := by
              have unknown : p.functions.contains entry = false := Bool.eq_false_iff.mpr unknown
              simp only [flagMove, unknown, Bool.false_eq_true, false_and, and_false, if_false]
              split <;> rfl
            rw [unmoved]
            exact Turns.of_eq rfl
      exact Runs.snd run
  | setFunctionComment entry comment => exact .of_eq rfl
  | removeSymbol a index => exact Runs.snd (removeSymbolAt_turns h one a index)
  | removeLabel label => exact Runs.snd (removeLabel_turns one label)
  | createLabel a name makePrimary =>
      have run : TurnsBy address (createLabel a name makePrimary) p
          (createLabel a name makePrimary).edit := by
        rw [TurnsBy, edit, Runs.bind_iff]
        exact createLabel_turns a name makePrimary
      exact Runs.snd run
  | setComment a kind text => exact .of_eq rfl
  | createData a type length clear => exact .of_eq (createData_symbolsAt p a type length clear).snd

/-! ## Operations in any order -/

/-- The moves of the flag at an address, in order. -/
def movesAt (address : Int) : Program → List Operation → List FlagMove
  | _, [] => []
  | p, o :: rest => (o.flagMove address p).toList ++ movesAt address (perform p o) rest

/-- Whether the function at an address ever falls back on the name of a label. -/
def everFallsBack (address : Int) : Program → List Operation → Bool
  | _, [] => false
  | p, o :: rest => o.fallsBack address p || everFallsBack address (perform p o) rest

theorem Turns.trans {r : Program} {move move' : Option FlagMove} {falls' isPlain' : Bool}
    (h : Turns address move falls isPlain p q) (h' : Turns address move' falls' isPlain' q r) :
    Turns address (move'.or move) (falls || falls') (isPlain || isPlain') p r where
  primaries := by
    rw [h'.primaries, h.primaries]
    cases move' with
    | none => rfl
    | some m => cases m <;> rfl
  clashes name hr := by
    rcases h'.clashes name hr with hq | ⟨rfl, hfalls⟩
    · refine (h.clashes name hq).imp_right fun ⟨hname, hfalls⟩ => ⟨hname, by simp [hfalls]⟩
    · exact .inr ⟨rfl, by simp [hfalls]⟩
  first hplain hp hmove := by
    rw [Bool.or_eq_false_iff] at hplain
    rw [Option.or_eq_none_iff] at hmove
    exact h'.first hplain.2 (h.first hplain.1 hp hmove.2) hmove.1

/-- Only the last move of the flag counts. -/
theorem performAll_turns (address : Int) (h : p.Consistent blocks)
    (one : primaries (p.symbolsAt address) ≤ 1) (operations : List Operation) :
    (performAll p operations).Consistent blocks ∧
      Turns address (movesAt address p operations).getLast? (everFallsBack address p operations)
        (!operations.all makesPrimary) p (performAll p operations) := by
  induction operations generalizing p with
  | nil => exact ⟨h, .of_eq rfl⟩
  | cons o rest ih =>
      have step := perform_turns h one o
      have one' : primaries ((perform p o).symbolsAt address) ≤ 1 := by
        rw [step.primaries]
        cases o.flagMove address p with
        | none => exact one
        | some move => cases move <;> simp [FlagMove.count]
      obtain ⟨consistent, rest⟩ := ih (perform_consistent h o) one'
      refine ⟨consistent, ?_⟩
      have run := step.trans rest
      rw [movesAt, List.getLast?_append, everFallsBack, List.all_cons, Bool.not_and]
      cases hmove : o.flagMove address p <;> rw [hmove] at run <;> exact run

/-- After any operations on a program that starts without symbols, where every label is made with
the flag, an address that has symbols has one primary symbol, unless the flag went with a label and
nobody has got it since; and no two symbols there have the same name, unless a function has fallen
back on its default name where a label had that name, and they still share it. -/
theorem performAll_symbols (executable : Option String) (pointerSize : Int)
    (convention : CallingConvention) (memory : List (Int × Int)) (arena : Arena)
    {operations : List Operation} (labels : operations.all makesPrimary = true) (address : Int) :
    let p : Program := { executable, pointerSize, convention, memory, arena }
    let symbols := (performAll p operations).symbolsAt address
    (symbols ≠ [] → primaries symbols =
      if (movesAt address p operations).getLast? = some .lost then 0 else 1) ∧
    ((symbols.map (·.name)).Nodup ∨
      everFallsBack address p operations = true ∧ Clashes symbols (defaultName address)) := by
  intro p symbols
  have blank : p.Consistent memory :=
    consistent_blank executable pointerSize convention memory arena
  obtain ⟨consistent, run⟩ := performAll_turns address blank (Nat.zero_le 1) operations
  rw [labels] at run
  refine ⟨fun hne => ?_, ?_⟩
  · rw [run.primaries]
    cases hmove : (movesAt address p operations).getLast? with
    | none =>
        rw [hmove] at run
        exact absurd (run.first rfl rfl rfl) hne
    | some move => cases move <;> rfl
  · have fit := consistent.symbols.fit address
    by_cases clashes : ∃ name, Clashes symbols name
    · obtain ⟨name, clash⟩ := clashes
      rcases run.clashes name clash with ⟨s, hs, -⟩ | ⟨rfl, hfalls⟩
      · cases hs
      · exact .inr ⟨hfalls, clash⟩
    · exact .inl (fit.nodup fun name clash => clashes ⟨name, clash⟩)

/-- A function that takes its name from a label. -/
def namedAfterLabel : List Operation :=
  [.createLabel ⟨256, false⟩ (.text "tick") true,
    .createFunction .null ⟨256, false⟩ none .analysis,
    .renameFunction 256 (.text "tick") .analysis]

theorem performAll_symbols_label :
    namedAfterLabel.all makesPrimary = true ∧
      primaries ((performAll {} namedAfterLabel).symbolsAt 256) = 1 ∧
      (((performAll {} namedAfterLabel).symbolsAt 256).map (·.name)).Nodup := by
  have labels : namedAfterLabel.all makesPrimary = true := rfl
  have stands : (performAll {} namedAfterLabel).symbolsAt 256 ≠ [] := by decide +kernel
  have moves : movesAt 256 {} namedAfterLabel = [.given, .given] := by decide +kernel
  have holds : everFallsBack 256 {} namedAfterLabel = false := by decide +kernel
  obtain ⟨one, apart⟩ := performAll_symbols none 4 .standard [] {} labels 256
  refine ⟨labels, ?_, apart.resolve_right fun falls => ?_⟩
  · rw [one stands, moves]
    rfl
  · rw [holds] at falls
    cases falls.1

/-- Two labels at an address, of which the second goes, and a label where a function comes. -/
def comeAndGone : List Operation :=
  [.createLabel ⟨256, false⟩ (.text "tick") true,
    .createLabel ⟨256, false⟩ (.text "tock") true,
    .removeSymbol 256 1,
    .createLabel ⟨512, false⟩ (.text "FUN_00000200") true,
    .createFunction .null ⟨512, false⟩ none .analysis]

/-- An address can have symbols and none of them primary, or two of one name. -/
theorem performAll_symbols_left :
    comeAndGone.all makesPrimary = true ∧
      ((performAll {} comeAndGone).symbolsAt 256).map (fun s => (s.name, s.primary)) =
        [("tick", false)] ∧
      ((performAll {} comeAndGone).symbolsAt 512).map (fun s => (s.kind, s.name)) =
        [(.label, "FUN_00000200"), (.function, "FUN_00000200")] :=
  ⟨rfl, by decide +kernel, by decide +kernel⟩

end Operation

end StabsImport

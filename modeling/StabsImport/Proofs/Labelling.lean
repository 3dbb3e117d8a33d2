import Mathlib.Data.List.Basic
import Mathlib.Data.List.TakeWhile
import StabsImport.Import.Functions
import StabsImport.Proofs.SymbolTable

/-!
# Labels put at an address again

A function's name takes the place of the labels that are in its way, and labels that are put at an
address leave it with the flag at the last of them. Labels that were cleared away and are put there
again come to stand at the end, so the order of the labels may change, but nothing else about them.
Main statement: `listed_labelledAll_again`.
-/

namespace StabsImport

namespace Program

variable {symbols symbols' pre post : List Symbol} {s : Symbol} {address : Whole} {name : String}

/-- The symbols at an address with a label of this name made primary, which is added if no symbol
has the name. -/
def labelled (address : Whole) (name : String) (symbols : List Symbol) : List Symbol :=
  match symbols.findIdx? (·.name == name) with
  | some index => symbols.mapIdx fun i other => { other with primary := i == index }
  | none => withSymbol symbols { address, name, primary := true }

def labelledAll (address : Whole) (names : List String) (symbols : List Symbol) : List Symbol :=
  names.foldl (fun symbols name => labelled address name symbols) symbols

/-- What is listed of the symbols: the labels, and which of them is primary. -/
def listed (symbols : List Symbol) : List (String × Bool) :=
  (symbols.filter (·.kind == .label)).map fun s => (s.name, s.primary)

def labelNames (symbols : List Symbol) : List String :=
  (symbols.filter (·.kind == .label)).map (·.name)

/-- The names of the labels that stand before the function. -/
def leading (symbols : List Symbol) : List String :=
  (symbols.takeWhile (·.kind == .label)).map (·.name)

theorem fst_listed (symbols : List Symbol) : (listed symbols).map (·.1) = labelNames symbols := by
  rw [listed, List.map_map]
  rfl

theorem mem_labelNames : name ∈ labelNames symbols ↔
    ∃ s ∈ symbols, s.kind = .label ∧ s.name = name := by
  simp [labelNames, and_assoc]

theorem mem_labelNames_of_leading (h : name ∈ leading symbols) : name ∈ labelNames symbols := by
  obtain ⟨s, hs, rfl⟩ := List.mem_map.mp h
  refine mem_labelNames.mpr ⟨s, List.takeWhile_subset _ hs, ?_, rfl⟩
  exact eq_of_beq (List.mem_takeWhile_imp (p := fun t : Symbol => t.kind == .label) hs)

section

variable (l l' : List Symbol)

theorem listed_append : listed (l ++ l') = listed l ++ listed l' := by simp [listed]

theorem labelNames_append : labelNames (l ++ l') = labelNames l ++ labelNames l' := by
  simp [labelNames]

theorem listed_cons : listed (s :: l) =
    if s.kind = .label then (s.name, s.primary) :: listed l else listed l := by
  cases h : s.kind <;> simp [listed, h]

theorem labelNames_cons : labelNames (s :: l) =
    if s.kind = .label then s.name :: labelNames l else labelNames l := by
  cases h : s.kind <;> simp [labelNames, h]

theorem labelNames_unflagged : labelNames (l.map ({ · with primary := false })) = labelNames l := by
  simp [labelNames, List.filter_map, Function.comp_def]

theorem listed_unflagged : listed (l.map ({ · with primary := false })) =
    (labelNames l).map fun n => (n, false) := by
  simp [listed, labelNames, List.filter_map, Function.comp_def]

end

/-! ## Names and places -/

theorem labelNames_congr (same : symbols'.map (·.tag) = symbols.map (·.tag)) :
    labelNames symbols' = labelNames symbols := by
  have told (l : List Symbol) : labelNames l =
      ((l.map (·.tag)).filter (·.2.1 == .label)).map (·.2.2) := by
    rw [labelNames, List.filter_map, List.map_map]
    rfl
  rw [told, told, same]

theorem leading_congr (same : symbols'.map (·.tag) = symbols.map (·.tag)) :
    leading symbols' = leading symbols := by
  have told (l : List Symbol) : leading l =
      ((l.map (·.tag)).takeWhile (·.2.1 == .label)).map (·.2.2) := by
    rw [leading, List.takeWhile_map, List.map_map]
    rfl
  rw [told, told, same]

/-- What is added behind a function does not stand before it. -/
theorem leading_append (known : ∃ s ∈ symbols, s.kind = .function) (more : List Symbol) :
    leading (symbols ++ more) = leading symbols := by
  have short : (symbols.takeWhile (·.kind == .label)).length ≠ symbols.length := by
    intro hlen
    obtain ⟨s, hs, hkind⟩ := known
    rw [← (List.takeWhile_prefix _).eq_of_length hlen] at hs
    have hlabel := List.mem_takeWhile_imp hs
    simp [hkind] at hlabel
  rw [leading, List.takeWhile_append, if_neg short, leading]

/-- The flag is given to the first symbol of the name. -/
theorem labelled_of_first (hs : s.name = name) (first : ∀ t ∈ pre, t.name ≠ name) :
    labelled address name (pre ++ s :: post) =
      pre.map ({ · with primary := false }) ++
        { s with primary := true } :: post.map ({ · with primary := false }) := by
  have hindex : (pre ++ s :: post).findIdx? (·.name == name) = some pre.length := by
    have hpre : pre.findIdx? (·.name == name) = none :=
      List.findIdx?_eq_none_iff.mpr fun t ht => by simpa using first t ht
    simp [List.findIdx?_append, hpre, List.findIdx?_cons, hs]
  simp only [labelled, hindex, List.mapIdx_append, List.mapIdx_cons]
  refine congrArg₂ (· ++ ·) ?_ (congrArg₂ List.cons (by simp) ?_)
  · refine List.ext_getElem (by simp) fun i hi _ => ?_
    have : i ≠ pre.length := Nat.ne_of_lt (by simpa using hi)
    simp [this]
  · exact List.ext_getElem (by simp) fun i _ _ => by simp

/-- Either a symbol has the name, and there is a first one, or a label is added. -/
theorem labelled_cases (address : Whole) (name : String) (symbols : List Symbol) :
    (∃ pre s post, symbols = pre ++ s :: post ∧ s.name = name ∧ (∀ t ∈ pre, t.name ≠ name) ∧
      labelled address name symbols = pre.map ({ · with primary := false }) ++
        { s with primary := true } :: post.map ({ · with primary := false })) ∨
    (∀ t ∈ symbols, t.name ≠ name) ∧ labelled address name symbols =
      symbols.map ({ · with primary := false }) ++ [{ address, name, primary := true }] := by
  cases h : symbols.findIdx? (·.name == name) with
  | none =>
      refine .inr ⟨fun t ht => ?_, by rw [labelled, h]; rfl⟩
      simpa using List.findIdx?_eq_none_iff.mp h t ht
  | some i =>
      obtain ⟨hlt, hname, hbefore⟩ := List.findIdx?_eq_some_iff_getElem.mp h
      have split : symbols = symbols.take i ++ symbols[i] :: symbols.drop (i + 1) := by
        rw [List.getElem_cons_drop hlt, List.take_append_drop]
      have first : ∀ t ∈ symbols.take i, t.name ≠ name := by
        intro t ht
        obtain ⟨j, hj, rfl⟩ := List.getElem_of_mem ht
        rw [List.length_take] at hj
        simpa using hbefore j (by omega)
      refine .inl ⟨_, _, _, split, eq_of_beq hname, first, ?_⟩
      rw [← labelled_of_first (eq_of_beq hname) first, ← split]

/-- A label is added behind all symbols, or none is. -/
theorem tags_labelled (address : Whole) (name : String) (symbols : List Symbol) :
    ((∃ t ∈ symbols, t.name = name) ∧
      (labelled address name symbols).map (·.tag) = symbols.map (·.tag)) ∨
    (∀ t ∈ symbols, t.name ≠ name) ∧ (labelled address name symbols).map (·.tag) =
      (symbols ++ [({ address, name, primary := true } : Symbol)]).map (·.tag) := by
  rcases labelled_cases address name symbols with ⟨pre, s, post, rfl, hs, -, h⟩ | ⟨fresh, h⟩
  · exact .inl ⟨⟨s, by simp, hs⟩, by simp [h, Symbol.tag, Function.comp_def]⟩
  · exact .inr ⟨fresh, by simp [h, Symbol.tag, Function.comp_def]⟩

theorem leading_labelled (known : ∃ s ∈ symbols, s.kind = .function) :
    leading (labelled address name symbols) = leading symbols := by
  rcases tags_labelled address name symbols with ⟨-, h⟩ | ⟨-, h⟩
  · exact leading_congr h
  · rw [leading_congr h, leading_append known]

end Program

open Program

/-! ## Labels beside a function -/

namespace SymbolsFit

variable {a : Int} {own : Option String} {symbols : List Symbol} {s : Symbol} {address : Whole}
  {name : String} {names : List String}

theorem mem_function (h : SymbolsFit a own symbols) :
    own = some name ↔ ∃ s ∈ symbols, s.kind = .function ∧ s.name = name := by
  have hmem : name ∈ (symbols.filter (·.kind == .function)).map (·.name) ↔ own = some name := by
    rw [h.functions, Option.mem_toList]
  rw [← hmem]
  simp [and_assoc]

theorem labelled (h : SymbolsFit address.value own symbols) (name : String) :
    SymbolsFit address.value own (labelled address name symbols) := by
  rcases tags_labelled address name symbols with ⟨-, ht⟩ | ⟨fresh, ht⟩
  · exact h.of_tags ht
  · have fit := h.withLabel (s := { address, name, primary := true }) rfl rfl fresh
    exact fit.of_tags (ht.trans (tags_withSymbol symbols _).symm)

theorem labelledAll (h : SymbolsFit address.value own symbols) (names : List String) :
    SymbolsFit address.value own (labelledAll address names symbols) := by
  induction names generalizing symbols with
  | nil => exact h
  | cons name names ih => exact ih (h.labelled name)

/-- A name is that of a label afterwards unless it is the function's. -/
theorem mem_labelNames_labelled (h : SymbolsFit address.value own symbols) (name : String)
    {n : String} : n ∈ labelNames (Program.labelled address name symbols) ↔
      n ∈ labelNames symbols ∨ n = name ∧ own ≠ some n := by
  rcases tags_labelled address name symbols with ⟨⟨t, ht, hname⟩, htags⟩ | ⟨fresh, htags⟩
  · rw [labelNames_congr htags]
    refine ⟨.inl, fun hn => hn.elim id ?_⟩
    rintro ⟨rfl, hown⟩
    refine mem_labelNames.mpr ⟨t, ht, ?_, hname⟩
    cases hkind : t.kind with
    | label => rfl
    | function => exact absurd (h.mem_function.mpr ⟨t, ht, hkind, hname⟩) hown
  · have hown : own ≠ some name := fun ho =>
      have ⟨t, ht, _, hname⟩ := h.mem_function.mp ho
      fresh t ht hname
    rw [labelNames_congr htags, labelNames, List.filter_append, List.map_append, List.mem_append]
    refine or_congr Iff.rfl ⟨fun hn => ?_, fun hn => by simp [hn.1]⟩
    obtain rfl : n = name := by simpa using hn
    exact ⟨rfl, hown⟩

theorem mem_labelNames_labelledAll (h : SymbolsFit address.value own symbols) {n : String} :
    n ∈ labelNames (Program.labelledAll address names symbols) ↔
      n ∈ labelNames symbols ∨ n ∈ names ∧ own ≠ some n := by
  induction names generalizing symbols with
  | nil => simp [Program.labelledAll]
  | cons name names ih =>
      show n ∈ labelNames (Program.labelledAll address names (Program.labelled address name symbols)) ↔ _
      rw [ih (h.labelled name), h.mem_labelNames_labelled, List.mem_cons, or_and_right, or_assoc]

theorem leading_labelledAll (h : SymbolsFit address.value own symbols) (known : own ≠ none) :
    leading (Program.labelledAll address names symbols) = leading symbols := by
  induction names generalizing symbols with
  | nil => rfl
  | cons name names ih =>
      refine (ih (h.labelled name)).trans (leading_labelled ?_)
      exact h.exists_function (Option.isSome_iff_ne_none.mpr known)

/-- A label is primary if it has the name put last, and is not hidden by the function. -/
theorem listed_labelled (h : SymbolsFit address.value own symbols) (name : String) :
    listed (Program.labelled address name symbols) =
      (labelNames (Program.labelled address name symbols)).map fun n =>
        (n, n == name && (own ≠ some name || (leading symbols).contains name)) := by
  have apart {ns : List String} (hn : name ∉ ns) (b : Bool) :
      ns.map (fun n => (n, n == name && b)) = ns.map fun n => (n, false) := by
    refine List.map_congr_left fun n hmem => ?_
    have : n ≠ name := fun hne => hn (hne ▸ hmem)
    simp [this]
  rcases labelled_cases address name symbols with ⟨pre, s, post, rfl, hs, first, hl⟩ | ⟨fresh, hl⟩
  · have before : name ∉ labelNames pre := fun hn =>
      have ⟨t, ht, _, hname⟩ := mem_labelNames.mp hn
      first t ht hname
    rw [hl]
    cases hkind : s.kind with
    | label =>
        have after : name ∉ labelNames post := by
          have nodup : (labelNames (pre ++ s :: post)).Nodup := h.labels
          rw [labelNames_append, labelNames_cons, if_pos hkind, hs] at nodup
          exact (List.nodup_cons.mp (List.nodup_append.mp nodup).2.1).1
        have shown : (own ≠ some name || (leading (pre ++ s :: post)).contains name) = true := by
          rw [Bool.or_eq_true, decide_eq_true_eq]
          by_cases hown : own = some name
          · subst hown
            have labels : ∀ t ∈ pre, (t.kind == .label) = true := by
              intro t ht
              cases hk : t.kind with
              | label => rfl
              | function => exact absurd (h.name_eq (List.mem_append_left _ ht) hk) (first t ht)
            exact .inr (by simp [leading, List.takeWhile_append_of_pos labels, hkind, hs])
          · exact .inl hown
        simp only [shown, listed_append, listed_cons, labelNames_append, labelNames_cons, hs,
          listed_unflagged, labelNames_unflagged, List.map_append, if_true, List.map_cons,
          apart before, apart after, beq_self_eq_true, Bool.and_self]
    | function =>
        have hidden : (own ≠ some name || (leading (pre ++ s :: post)).contains name) = false := by
          have hown : own = some name := h.mem_function.mpr ⟨s, by simp, hkind, hs⟩
          have behind : leading (pre ++ s :: post) ⊆ pre.map (·.name) := by
            intro n hn
            obtain ⟨t, ht, rfl⟩ := List.mem_map.mp hn
            refine List.mem_map_of_mem ?_
            rw [List.takeWhile_append] at ht
            split at ht
            · simpa [List.takeWhile_cons, hkind] using ht
            · exact List.takeWhile_subset _ ht
          have hlead : name ∉ leading (pre ++ s :: post) := fun hn =>
            have ⟨t, ht, hname⟩ := List.mem_map.mp (behind hn)
            first t ht hname
          simp [hown, hlead]
        simp only [hidden, listed_append, listed_cons, labelNames_append, labelNames_cons,
          listed_unflagged, labelNames_unflagged, List.map_append, Bool.and_false, reduceCtorEq,
          if_false]
  · have hn : name ∉ labelNames symbols := fun hn =>
      have ⟨t, ht, _, hname⟩ := mem_labelNames.mp hn
      fresh t ht hname
    have hown : own ≠ some name := fun ho =>
      have ⟨t, ht, _, hname⟩ := h.mem_function.mp ho
      fresh t ht hname
    rw [hl, listed_append, labelNames_append, listed_unflagged, labelNames_unflagged,
      List.map_append, apart hn]
    simp [listed, labelNames, hown]

/-- Labels that are put at an address again, after some were cleared away that had been put there
before, come back as they were. -/
theorem listed_labelledAll_again {again : List Symbol} (h : SymbolsFit address.value own symbols)
    (h' : SymbolsFit address.value own again) (keep : String → Bool)
    (kept : ∀ n ∈ labelNames symbols, keep n = true)
    (cleared : listed again =
      (listed (Program.labelledAll address names symbols)).filter fun l => keep l.1)
    (ahead : own ≠ none →
      leading again = (leading (Program.labelledAll address names symbols)).filter keep) :
    (listed (Program.labelledAll address names again)).Perm
      (listed (Program.labelledAll address names symbols)) := by
  have names_eq : labelNames again =
      (labelNames (Program.labelledAll address names symbols)).filter keep := by
    rw [← fst_listed, cleared, ← fst_listed, List.filter_map]
    rfl
  have names_perm : (labelNames (Program.labelledAll address names again)).Perm
      (labelNames (Program.labelledAll address names symbols)) := by
    refine (List.perm_ext_iff_of_nodup (h'.labelledAll names).labels (h.labelledAll names).labels).mpr
      fun n => ?_
    show n ∈ labelNames _ ↔ n ∈ labelNames _
    rw [h'.mem_labelNames_labelledAll, names_eq, List.mem_filter, h.mem_labelNames_labelledAll]
    refine ⟨fun hn => hn.elim (·.1) .inr, fun hn => ?_⟩
    rcases hn with hn | hn
    · exact .inl ⟨.inl hn, kept n hn⟩
    · exact .inr hn
  rcases List.eq_nil_or_concat' names with rfl | ⟨firsts, last, rfl⟩
  · show (listed again).Perm (listed symbols)
    have all : ∀ l ∈ listed symbols, keep l.1 = true := by
      intro l hl
      refine kept l.1 ?_
      rw [← fst_listed]
      exact List.mem_map_of_mem hl
    rw [cleared]
    exact .of_eq (List.filter_eq_self.mpr all)
  · have unfold_last (l : List Symbol) : Program.labelledAll address (firsts ++ [last]) l =
        Program.labelled address last (Program.labelledAll address firsts l) := List.foldl_append
    have hidden : own = some last →
        (leading (Program.labelledAll address firsts again)).contains last =
          (leading (Program.labelledAll address firsts symbols)).contains last := by
      intro hown
      have known : own ≠ none := by simp [hown]
      rw [h'.leading_labelledAll known, ahead known, h.leading_labelledAll known,
        h.leading_labelledAll known, Bool.eq_iff_iff]
      simp only [List.contains_iff_mem, List.mem_filter]
      exact ⟨And.left, fun hl => ⟨hl, kept last (mem_labelNames_of_leading hl)⟩⟩
    rw [unfold_last, unfold_last] at names_perm ⊢
    rw [(h'.labelledAll firsts).listed_labelled, (h.labelledAll firsts).listed_labelled]
    by_cases hown : own = some last
    · rw [hidden hown]
      exact names_perm.map _
    · simp only [ne_eq, hown, not_false_eq_true, decide_true, Bool.true_or]
      exact names_perm.map _

end SymbolsFit

end StabsImport

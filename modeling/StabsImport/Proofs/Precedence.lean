import Mathlib.Data.List.Basic
import Mathlib.Data.List.Induction
import Mathlib.Order.Lattice
import StabsImport.Import.Settings

/-!
# Options from several sources

Each option goes its own way through the sources: an override that fits it counts for more than its
environment variable, that for more than an entry of the options file, and that for more than what
the option is at first. Of several entries of one source the last that fits counts, and those that
do not fit do not. Main statement: `settle_merges`.
-/

namespace StabsImport.Import

open Yaml (Value)

/-- The options, one by one. -/
inductive Field where
  | importTypes
  | importFunctions
  | importGlobals
  | markInlined
  | outputLines
  | elfPath
  | jsonPath
  | toolPath
  | timeout
  deriving DecidableEq, Repr

inductive FieldKind where
  | flag
  | number
  | text
  deriving DecidableEq, Repr

/-- What an option is set to. -/
inductive Datum where
  | flag (b : Bool)
  | number (n : Int)
  | text (s : String)
  deriving DecidableEq, Repr

def Datum.kind : Datum → FieldKind
  | flag _ => .flag
  | number _ => .number
  | text _ => .text

namespace FieldKind

/-- What a value gives an option of this kind, if it is of the right type. A text option takes every
value by its text, and no value as no text. -/
def ofValue? : FieldKind → Value → Option Datum
  | flag, .bool b => some (.flag b)
  | number, .int n => some (.number n)
  | text, .null => some (.text "")
  | text, v => some (.text v.plain)
  | _, _ => none

/-- What a variable gives an option of this kind, if it can be used. -/
def ofVariable? (raw : String) : FieldKind → Option Datum
  | flag =>
      if raw = "" then none
      else some (.flag (decide (Text.lower (Text.trim raw) ∉ ["0", "false", "no", "off"])))
  | number => if raw = "" then none else (Text.integer? raw).map fun n => .number (max n 0)
  | text => if raw = "" then none else some (.text raw)

theorem kind_of_ofValue {k : FieldKind} {v : Value} {d : Datum} (h : k.ofValue? v = some d) :
    d.kind = k := by
  cases k <;> cases v <;> cases h <;> rfl

theorem kind_of_ofVariable {k : FieldKind} {raw : String} {d : Datum}
    (h : k.ofVariable? raw = some d) : d.kind = k := by
  cases k with
  | number =>
      rw [ofVariable?] at h
      split at h
      · cases h
      · obtain ⟨n, -, rfl⟩ := Option.map_eq_some_iff.mp h
        rfl
  | flag | text =>
      rw [ofVariable?] at h
      split at h <;> cases h
      rfl

end FieldKind

namespace Field

def kind : Field → FieldKind
  | importTypes | importFunctions | importGlobals | markInlined | outputLines => .flag
  | elfPath | jsonPath | toolPath => .text
  | timeout => .number

def name : Field → String
  | importTypes => "import_data_types"
  | importFunctions => "import_functions"
  | importGlobals => "import_globals"
  | markInlined => "mark_inlined_code"
  | outputLines => "output_line_numbers"
  | elfPath => "override_elf_path"
  | jsonPath => "override_json_path"
  | toolPath => "stdump_path"
  | timeout => "stdump_timeout_seconds"

def camelName : Field → String
  | importTypes => "importDataTypes"
  | importFunctions => "importFunctions"
  | importGlobals => "importGlobals"
  | markInlined => "markInlinedCode"
  | outputLines => "outputLineNumbers"
  | elfPath => "overrideElfPath"
  | jsonPath => "overrideJsonPath"
  | toolPath => "stdumpPath"
  | timeout => "stdumpTimeoutSeconds"

def variableName : Field → String
  | importTypes => "STDUMP_IMPORT_IMPORT_DATA_TYPES"
  | importFunctions => "STDUMP_IMPORT_IMPORT_FUNCTIONS"
  | importGlobals => "STDUMP_IMPORT_IMPORT_GLOBALS"
  | markInlined => "STDUMP_IMPORT_MARK_INLINED_CODE"
  | outputLines => "STDUMP_IMPORT_OUTPUT_LINE_NUMBERS"
  | elfPath => "STDUMP_IMPORT_OVERRIDE_ELF_PATH"
  | jsonPath => "STDUMP_IMPORT_OVERRIDE_JSON_PATH"
  | toolPath => "STDUMP_IMPORT_STDUMP_PATH"
  | timeout => "STDUMP_IMPORT_STDUMP_TIMEOUT_SECONDS"

def get (f : Field) (o : Options) : Datum :=
  match f with
  | importTypes => .flag o.importTypes
  | importFunctions => .flag o.importFunctions
  | importGlobals => .flag o.importGlobals
  | markInlined => .flag o.markInlined
  | outputLines => .flag o.outputLines
  | elfPath => .text o.elfPath
  | jsonPath => .text o.jsonPath
  | toolPath => .text o.toolPath
  | timeout => .number o.timeout

def all : List Field :=
  [importTypes, importFunctions, importGlobals, markInlined, outputLines, elfPath, jsonPath,
   toolPath, timeout]

theorem mem_all (f : Field) : f ∈ all := by cases f <;> decide

/-- Whether a key names the option, under either spelling. -/
def isNamedBy (f : Field) : Value → Bool
  | .text s => f.name == s || f.camelName == s
  | _ => false

/-- What an entry gives the option, if it is about the option and of the right type. -/
def given? (f : Field) (e : Value × Value) : Option Datum :=
  if f.isNamedBy e.1 then f.kind.ofValue? e.2 else none

/-- What the last entry that gives the option something gives it. -/
def lastGiven? (f : Field) (entries : List (Value × Value)) : Option Datum :=
  (entries.filterMap f.given?).getLast?

/-- What the environment gives the option. -/
def fromEnvironment? (f : Field) (h : Host) : Option Datum :=
  f.kind.ofVariable? ((h.environment.get? f.variableName).getD "")

/-- What the option comes to, from the entries of the file, the environment and the overrides. -/
def merged (f : Field) (entries : List (Value × Value)) (h : Host)
    (overrides : List (Value × Value)) : Datum :=
  (((f.lastGiven? overrides).or (f.fromEnvironment? h)).or (f.lastGiven? entries)).getD (f.get {})

/-! ## One option and the others -/

/-- The option with a new value of its kind. -/
def set (f : Field) (d : Datum) (o : Options) : Options :=
  match f, d with
  | importTypes, .flag b => { o with importTypes := b }
  | importFunctions, .flag b => { o with importFunctions := b }
  | importGlobals, .flag b => { o with importGlobals := b }
  | markInlined, .flag b => { o with markInlined := b }
  | outputLines, .flag b => { o with outputLines := b }
  | elfPath, .text s => { o with elfPath := s }
  | jsonPath, .text s => { o with jsonPath := s }
  | toolPath, .text s => { o with toolPath := s }
  | timeout, .number n => { o with timeout := n }
  | _, _ => o

theorem get_set_of_ne {f g : Field} (h : g ≠ f) (d : Datum) (o : Options) :
    g.get (f.set d o) = g.get o := by
  cases f <;> cases d <;> cases g <;> first | rfl | exact absurd rfl h

theorem get_set_self {f : Field} {d : Datum} (h : d.kind = f.kind) (o : Options) :
    f.get (f.set d o) = d := by
  cases f <;> cases d <;> first | rfl | cases h

theorem spellings_apart : ∀ f ∈ all, ∀ g ∈ all, f ≠ g →
    f.name ≠ g.name ∧ f.name ≠ g.camelName ∧ f.camelName ≠ g.camelName := by
  decide

/-- No key names two options. -/
theorem eq_of_isNamedBy {f g : Field} {key : Value} (hf : f.isNamedBy key = true)
    (hg : g.isNamedBy key = true) : f = g := by
  by_contra hne
  have hfg := spellings_apart f f.mem_all g g.mem_all hne
  have hgf := spellings_apart g g.mem_all f f.mem_all (Ne.symm hne)
  cases key with
  | text s =>
      simp only [isNamedBy, Bool.or_eq_true, beq_iff_eq] at hf hg
      rcases hf with rfl | rfl <;> rcases hg with hg | hg
      · exact hfg.1 hg.symm
      · exact hfg.2.1 hg.symm
      · exact hgf.2.1 hg
      · exact hfg.2.2 hg.symm
  | _ => cases hf

theorem variableName_injective {f g : Field} (h : f.variableName = g.variableName) : f = g := by
  have apart : ∀ f ∈ all, ∀ g ∈ all, f.variableName = g.variableName → f = g := by decide
  exact apart f f.mem_all g g.mem_all h

/-! ## The table of settings -/

def slot : Field → Slot
  | importTypes => .flag (·.importTypes) fun o b => { o with importTypes := b }
  | importFunctions => .flag (·.importFunctions) fun o b => { o with importFunctions := b }
  | importGlobals => .flag (·.importGlobals) fun o b => { o with importGlobals := b }
  | markInlined => .flag (·.markInlined) fun o b => { o with markInlined := b }
  | outputLines => .flag (·.outputLines) fun o b => { o with outputLines := b }
  | elfPath => .text fun o s => { o with elfPath := s }
  | jsonPath => .text fun o s => { o with jsonPath := s }
  | toolPath => .text fun o s => { o with toolPath := s }
  | timeout => .number (·.timeout) fun o n => { o with timeout := n }

def setting (f : Field) : Setting := ⟨f.name, f.camelName, f.slot⟩

theorem map_setting_all : all.map setting = Setting.all := rfl

theorem variableName_setting (f : Field) : f.setting.variableName = f.variableName := by
  cases f <;> decide +kernel

/-- The option that a key names. -/
def named? (key : Value) : Option Field := all.find? (·.isNamedBy key)

theorem named?_eq_some {f : Field} {key : Value} :
    named? key = some f ↔ f.isNamedBy key = true := by
  have named {g : Field} (h : named? key = some g) : g.isNamedBy key = true := by
    rw [named?, List.find?_eq_some_iff_append] at h
    exact h.1
  refine ⟨named, fun h => ?_⟩
  cases found : named? key with
  | none => exact absurd h (List.find?_eq_none.mp found f f.mem_all)
  | some g => rw [eq_of_isNamedBy (named found) h]

theorem setting_named? (key : Value) : Setting.named? key = (named? key).map setting := by
  cases key with
  | text s =>
      rw [Setting.named?, ← map_setting_all, List.find?_map]
      rfl
  | _ => rfl

end Field

/-! ## Steps that may fail -/

section

variable {σ α β ε : Type} {step : σ → α → Except ε σ} {l : List α} {s t : σ}

theorem exists_of_bind_eq_ok {m : Except ε α} {f : α → Except ε β} {b : β}
    (h : m >>= f = .ok b) : ∃ a, m = .ok a ∧ f a = .ok b := by
  cases m with
  | error e => cases h
  | ok a => exact ⟨a, rfl, h⟩

theorem error_of_bind_eq_error {m : Except ε α} {f : α → Except ε β} {e : ε}
    (h : m >>= f = .error e) : m = .error e ∨ ∃ a, m = .ok a ∧ f a = .error e := by
  cases m with
  | error e' =>
      cases h
      exact .inl rfl
  | ok a => exact .inr ⟨a, rfl, h⟩

/-- What each step makes of a view of the state, all of them make in turn. -/
theorem view_foldlM (view : σ → β) (next : β → α → β)
    (hstep : ∀ {s a t}, step s a = .ok t → view t = next (view s) a)
    (ht : l.foldlM step s = .ok t) : view t = l.foldl next (view s) := by
  induction l generalizing s with
  | nil =>
      cases ht
      rfl
  | cons a l ih =>
      rw [List.foldlM_cons] at ht
      cases hs : step s a with
      | error e =>
          rw [hs] at ht
          cases ht
      | ok u =>
          rw [hs] at ht
          rw [List.foldl_cons, ← hstep hs]
          exact ih ht

/-- No step fails where each that keeps to an invariant succeeds. -/
theorem exists_foldlM (inv : σ → Prop) (hs : inv s)
    (hstep : ∀ a ∈ l, ∀ s, inv s → ∃ t, step s a = .ok t ∧ inv t) :
    ∃ t, l.foldlM step s = .ok t ∧ inv t := by
  induction l generalizing s with
  | nil => exact ⟨s, rfl, hs⟩
  | cons a l ih =>
      obtain ⟨t, ht, hinv⟩ := hstep a List.mem_cons_self s hs
      rw [List.foldlM_cons, ht]
      exact ih hinv fun b hb => hstep b (List.mem_cons_of_mem a hb)

/-- Where the steps fail, one of them does. -/
theorem exists_of_foldlM_error {e : ε} (h : l.foldlM step s = .error e) :
    ∃ a ∈ l, ∃ t, step t a = .error e := by
  induction l generalizing s with
  | nil => cases h
  | cons a l ih =>
      rw [List.foldlM_cons] at h
      cases hs : step s a with
      | error e' =>
          rw [hs] at h
          cases h
          exact ⟨a, List.mem_cons_self, s, hs⟩
      | ok u =>
          rw [hs] at h
          obtain ⟨b, hb, found⟩ := ih h
          exact ⟨b, List.mem_cons_of_mem a hb, found⟩

end

/-! ## What is written -/

theorem or_ne_tooDeep {a b : Option Yaml.WritingFault} (ha : a ≠ some .tooDeep)
    (hb : b ≠ some .tooDeep) : a.or b ≠ some .tooDeep := by
  cases a with
  | none => exact hb
  | some cause => exact ha

mutual

/-- Without a limit on calls nothing is too deep. -/
theorem writingFault?_unlimited : (v : Value) → v.writingFault? none ≠ some .tooDeep
  | .int n => by
      rw [Value.writingFault?, if_pos (Room.allows_none 1)]
      split <;> nofun
  | .list items => by
      rw [Value.writingFault?, if_pos (Room.allows_none 1)]
      exact itemsFault?_unlimited items
  | .set [] => by
      rw [Value.writingFault?, if_pos (Room.allows_none 1)]
      nofun
  | .set (x :: xs) => by
      rw [Value.writingFault?, if_pos (Room.allows_none 2)]
      exact or_ne_tooDeep (writingFault?_unlimited x) (itemsFault?_unlimited xs)
  | .time t => by
      rw [Value.writingFault?, if_pos (Room.allows_none _)]
      nofun
  | .pair a b => by
      rw [Value.writingFault?, if_pos (Room.allows_none 1)]
      exact or_ne_tooDeep (writingFault?_unlimited a) (writingFault?_unlimited b)
  | .mapping entries => by
      rw [Value.writingFault?, if_pos (Room.allows_none 1)]
      exact entriesFault?_unlimited entries
  | .null | .bool _ | .real _ | .text _ | .bytes _ | .cycle _ => by simp [Value.writingFault?]

theorem itemsFault?_unlimited : (items : List Value) → Value.itemsFault? none items ≠ some .tooDeep
  | [] => nofun
  | x :: xs => or_ne_tooDeep (writingFault?_unlimited x) (itemsFault?_unlimited xs)

theorem entriesFault?_unlimited : (entries : List (Value × Value)) →
    Value.entriesFault? none entries ≠ some .tooDeep
  | [] => nofun
  | (k, v) :: rest =>
      or_ne_tooDeep (or_ne_tooDeep (writingFault?_unlimited k) (writingFault?_unlimited v))
        (entriesFault?_unlimited rest)

end

theorem eq_longNumber_of_unlimited {v : Value} {cause : Yaml.WritingFault}
    (h : v.writingFault? none = some cause) : cause = .longNumber := by
  cases cause with
  | longNumber => rfl
  | tooDeep => exact absurd h (writingFault?_unlimited v)

/-! ## What is logged -/

/-- Whatever keeps the value from being written, logging it from inside so many calls goes
through. -/
def CanLog (h : Host) (calls : Nat) (v : Value) : Prop :=
  ∀ cause, v.writingFault? (h.room.inside (calls + h.log.calls)) = some cause →
    h.log.passesOver cause = true

/-- The entry is about an option that takes values by their texts. -/
def IsTextual (e : Value × Value) : Prop := ∃ f : Field, f.isNamedBy e.1 = true ∧ f.kind = .text

namespace Settled

variable {h : Host} {calls : Nat} {v : Value} {text : Unit → String} {s t : Settled}
  {e : Unsettled}

theorem options_log (ht : s.log h calls v text = .ok t) : t.options = s.options := by
  rw [log] at ht
  split at ht
  · cases ht
    rfl
  · split at ht <;> cases ht
    rfl

theorem log_of_canLog (hv : CanLog h calls v) (text : Unit → String) :
    ∃ t, s.log h calls v text = .ok t := by
  rw [log]
  split
  · exact ⟨_, rfl⟩
  · next cause fault => exact ⟨s, if_pos (hv cause fault)⟩

theorem log_error (he : s.log h calls v text = .error e) :
    ∃ cause, e.cause = .unwritten cause ∧ h.log.passesOver cause = false := by
  rw [log] at he
  split at he
  · cases he
  · next cause _ =>
      split at he
      · cases he
      · next hcause =>
          cases he
          exact ⟨cause, rfl, Bool.not_eq_true _ ▸ hcause⟩

/-! ## Entries -/

/-- The options with what an entry gives one of them. -/
def optionsWith (x : Value × Value) (o : Options) : Options :=
  (Field.named? x.1).elim o fun f => (f.kind.ofValue? x.2).elim o (f.set · o)

/-- An entry is taken; or it is passed over, and its key or its value is logged; or it is about a
text option and has a value without a text. -/
theorem applyEntry_cases (h : Host) (s : Settled) (x : Value × Value) :
    s.applyEntry h x = .ok (s.change (optionsWith x s.options)) ∨
    (∃ v text, (v = x.1 ∨ v = x.2) ∧ optionsWith x s.options = s.options ∧
      s.applyEntry h x = s.log h 2 v text) ∨
    ∃ cause, IsTextual x ∧ textFault? (h.room.inside 2) x.2 = some cause ∧
      s.applyEntry h x = .error ⟨.unwritten cause, s.warnings⟩ := by
  obtain ⟨key, value⟩ := x
  rw [applyEntry, Field.setting_named?, optionsWith]
  cases named : Field.named? key with
  | none => exact .inr (.inl ⟨key, _, .inl rfl, rfl, rfl⟩)
  | some f =>
      cases hkind : f.kind with
      | flag =>
          cases f <;> cases hkind
          all_goals
            cases value with
            | bool b => exact .inl rfl
            | _ => exact .inr (.inl ⟨_, _, .inr rfl, rfl, rfl⟩)
      | number =>
          cases f <;> cases hkind
          cases value with
          | int n => exact .inl rfl
          | _ => exact .inr (.inl ⟨_, _, .inr rfl, rfl, rfl⟩)
      | text =>
          have textual : IsTextual (key, value) := ⟨f, Field.named?_eq_some.mp named, hkind⟩
          cases fault : textFault? (h.room.inside 2) value with
          | none =>
              refine .inl ?_
              cases f <;> cases hkind
              all_goals
                simp only [Option.map_some, Field.setting, Field.slot, fault]
                cases value <;> rfl
          | some cause =>
              refine .inr (.inr ⟨cause, textual, rfl, ?_⟩)
              cases f <;> cases hkind
              all_goals simp only [Option.map_some, Field.setting, Field.slot, fault]

theorem options_applyEntry {x : Value × Value} (ht : s.applyEntry h x = .ok t) :
    t.options = optionsWith x s.options := by
  rcases applyEntry_cases h s x with taken | ⟨_, _, -, same, logged⟩ | ⟨_, -, -, failed⟩
  · rw [taken] at ht
    cases ht
    rfl
  · rw [logged] at ht
    rw [options_log ht, same]
  · rw [failed] at ht
    cases ht

/-- An entry whose texts can be made does not fail. -/
theorem applyEntry_ok {x : Value × Value}
    (written : IsTextual x → textFault? (h.room.inside 2) x.2 = none) (hkey : CanLog h 2 x.1)
    (hvalue : CanLog h 2 x.2) : ∃ t, s.applyEntry h x = .ok t := by
  rcases applyEntry_cases h s x with taken | ⟨v, _, hv, -, logged⟩ | ⟨_, textual, fault, -⟩
  · exact ⟨_, taken⟩
  · rw [logged]
    rcases hv with rfl | rfl
    · exact log_of_canLog hkey _
    · exact log_of_canLog hvalue _
  · rw [written textual] at fault
    cases fault

/-- An entry fails where the value of a text option has no text, or a message about it none. -/
theorem applyEntry_error {x : Value × Value} (he : s.applyEntry h x = .error e) :
    ∃ cause, e.cause = .unwritten cause ∧ (h.log.passesOver cause = false ∨
      IsTextual x ∧ textFault? (h.room.inside 2) x.2 = some cause) := by
  rcases applyEntry_cases h s x with taken | ⟨_, _, -, -, logged⟩ | ⟨cause, textual, fault, failed⟩
  · rw [taken] at he
    cases he
  · rw [logged] at he
    obtain ⟨cause, hcause, handler⟩ := log_error he
    exact ⟨cause, hcause, .inl handler⟩
  · rw [failed] at he
    cases he
    exact ⟨cause, rfl, .inr ⟨textual, fault⟩⟩

theorem get_applyEntry (f : Field) {x : Value × Value} (ht : s.applyEntry h x = .ok t) :
    f.get t.options = (f.given? x).getD (f.get s.options) := by
  rw [options_applyEntry ht, optionsWith, Field.given?]
  by_cases named : f.isNamedBy x.1 = true
  · rw [Field.named?_eq_some.mpr named, if_pos named, Option.elim_some]
    cases fits : f.kind.ofValue? x.2 with
    | none => rfl
    | some d => exact Field.get_set_self (FieldKind.kind_of_ofValue fits) _
  · rw [if_neg named]
    cases found : Field.named? x.1 with
    | none => rfl
    | some g =>
        have other : f ≠ g := fun h => named (h ▸ Field.named?_eq_some.mp found)
        rw [Option.elim_some]
        cases g.kind.ofValue? x.2 with
        | none => rfl
        | some d => exact Field.get_set_of_ne other d _

/-- Of the entries about an option the last one counts. -/
theorem get_applyEntries (f : Field) {entries : List (Value × Value)}
    (ht : s.applyEntries h entries = .ok t) :
    f.get t.options = (f.lastGiven? entries).getD (f.get s.options) := by
  have last (d : Datum) : entries.foldl (fun d x => (f.given? x).getD d) d =
      (f.lastGiven? entries).getD d := by
    clear ht
    induction entries using List.reverseRecOn with
    | nil => rfl
    | append_singleton entries x ih =>
        rw [List.foldl_concat, ih, Field.lastGiven?, Field.lastGiven?, List.filterMap_append]
        cases hgiven : f.given? x <;> simp [hgiven]
  rw [← last]
  exact view_foldlM (fun s : Settled => f.get s.options) _ (get_applyEntry f) ht

/-! ## The environment -/

/-- A number that is negative counts as zero. -/
theorem options_applyNumber {name raw : String} {current : Int} {set : Int → Options}
    (ht : s.applyNumber h name raw current set = .ok t) :
    t.options = (Text.integer? raw).elim s.options fun n => set (max n 0) := by
  rw [applyNumber] at ht
  cases hn : Text.integer? raw with
  | none =>
      rw [hn] at ht
      exact options_log ht
  | some n =>
      rw [hn] at ht
      dsimp only at ht
      split at ht
      · next negative =>
          rw [Option.elim_some, max_eq_right (by omega)]
          revert ht
          cases s.log h 3 (.int 0) _ with
          | error e => exact nofun
          | ok u =>
              rintro ⟨⟩
              rfl
      · next natural =>
          rw [Option.elim_some, max_eq_left (by omega)]
          cases ht
          rfl

/-- Only zero and the number that the option has so far may have to be logged. -/
theorem applyNumber_cases (h : Host) (s : Settled) (name raw : String) (current : Int)
    (set : Int → Options) :
    (∃ t, s.applyNumber h name raw current set = .ok t) ∨
      ∃ n text e, (n = 0 ∨ n = current) ∧ s.applyNumber h name raw current set = .error e ∧
        s.log h 3 (.int n) text = .error e := by
  rw [applyNumber]
  split
  · cases hlog : s.log h 3 (.int current) _ with
    | ok t => exact .inl ⟨t, rfl⟩
    | error e => exact .inr ⟨current, _, e, .inr rfl, rfl, hlog⟩
  · split
    · cases hlog : s.log h 3 (.int 0) _ with
      | ok t => exact .inl ⟨_, rfl⟩
      | error e => exact .inr ⟨0, _, e, .inl rfl, rfl, hlog⟩
    · exact .inl ⟨_, rfl⟩

theorem options_applyVariable {f : Field} (ht : s.applyVariable h f.setting = .ok t) :
    t.options = (f.fromEnvironment? h).elim s.options (f.set · s.options) := by
  have spelled := Field.variableName_setting f
  rw [applyVariable, spelled] at ht
  rw [Field.fromEnvironment?]
  generalize (h.environment.get? f.variableName).getD "" = raw at ht ⊢
  by_cases empty : raw = ""
  · rw [if_pos empty] at ht
    cases ht
    cases f <;> simp [Field.kind, FieldKind.ofVariable?, empty]
  · rw [if_neg empty] at ht
    cases f with
    | timeout =>
        simp only [Field.setting, Field.slot] at ht
        rw [options_applyNumber ht]
        simp only [Field.kind, FieldKind.ofVariable?, if_neg empty]
        cases Text.integer? raw <;> rfl
    | _ =>
        simp only [Field.setting, Field.slot, Except.ok.injEq] at ht
        subst ht
        simp [Field.kind, FieldKind.ofVariable?, empty, change, flagOf, falseWords, Field.set]

theorem applyVariable_ok {f : Field} (hf : f ≠ .timeout) :
    ∃ t, s.applyVariable h f.setting = .ok t := by
  rw [applyVariable]
  split
  · exact ⟨s, rfl⟩
  · cases f with
    | timeout => exact absurd rfl hf
    | _ => exact ⟨_, rfl⟩

/-- A variable fails only where no message can be made of the number that stands in for its own. -/
theorem applyVariable_cases (h : Host) (s : Settled) (f : Field) :
    (∃ t, s.applyVariable h f.setting = .ok t) ∨
      ∃ n text e, (n = 0 ∨ n = s.options.timeout) ∧ s.applyVariable h f.setting = .error e ∧
        s.log h 3 (.int n) text = .error e := by
  by_cases hf : f = .timeout
  · subst hf
    rw [applyVariable]
    split
    · exact .inl ⟨s, rfl⟩
    · exact applyNumber_cases ..
  · exact .inl (applyVariable_ok hf)

theorem get_applyVariable (f : Field) {g : Field} (ht : s.applyVariable h g.setting = .ok t) :
    f.get t.options =
      if f = g then (f.fromEnvironment? h).getD (f.get s.options) else f.get s.options := by
  rw [options_applyVariable ht]
  split
  · next same =>
      subst same
      cases given : f.fromEnvironment? h with
      | none => rfl
      | some d => exact Field.get_set_self (FieldKind.kind_of_ofVariable given) _
  · next other =>
      cases g.fromEnvironment? h with
      | none => rfl
      | some d => exact Field.get_set_of_ne other d _

theorem applyEnvironment_eq (h : Host) (s : Settled) :
    s.applyEnvironment h = Field.all.foldlM (fun s g => s.applyVariable h g.setting) s := by
  rw [applyEnvironment, ← Field.map_setting_all, List.foldlM_map]

/-- Each variable sets its own option, however often it is looked at. -/
theorem get_applyEnvironment (f : Field) (ht : s.applyEnvironment h = .ok t) :
    f.get t.options = (f.fromEnvironment? h).getD (f.get s.options) := by
  have each (fields : List Field) (d : Datum) :
      fields.foldl (fun d g => if f = g then (f.fromEnvironment? h).getD d else d) d =
        if f ∈ fields then (f.fromEnvironment? h).getD d else d := by
    induction fields using List.reverseRecOn with
    | nil => rfl
    | append_singleton fields g ih =>
        rw [List.foldl_concat, ih]
        by_cases same : f = g
        · rw [if_pos same, if_pos (List.mem_append_right _ (List.mem_singleton.mpr same))]
          cases f.fromEnvironment? h with
          | none => exact ite_self _
          | some d => rfl
        · have others : f ∈ fields ++ [g] ↔ f ∈ fields := by simp [same]
          simp only [if_neg same, others]
  rw [applyEnvironment_eq] at ht
  rw [view_foldlM (fun s : Settled => f.get s.options)
    (fun d g => if f = g then (f.fromEnvironment? h).getD d else d) (get_applyVariable f) ht, each,
    if_pos f.mem_all]

/-- No variable comes after the one that holds a number. -/
theorem applyEnvironment_ok (hzero : CanLog h 3 (.int 0))
    (hnumber : CanLog h 3 (.int s.options.timeout)) : ∃ t, s.applyEnvironment h = .ok t := by
  have last : Field.all = Field.all.dropLast ++ [.timeout] := rfl
  obtain ⟨t, ht, same⟩ := exists_foldlM (l := Field.all.dropLast) (s := s)
    (fun t : Settled => t.options.timeout = s.options.timeout) rfl fun g hg t ht => by
      have hne : g ≠ .timeout := by
        rintro rfl
        exact absurd hg (by decide)
      obtain ⟨u, hu⟩ := applyVariable_ok (h := h) (s := t) hne
      have kept := get_applyVariable .timeout hu
      rw [if_neg (Ne.symm hne)] at kept
      exact ⟨u, hu, (Datum.number.inj kept).trans ht⟩
  rw [applyEnvironment_eq, last, List.foldlM_append, ht]
  rcases applyVariable_cases h t .timeout with ⟨u, hu⟩ | ⟨n, text, e, hn, -, hlog⟩
  · exact ⟨u, by simp only [bind, Except.bind, List.foldlM, hu, pure, Except.pure]⟩
  · have hcan : CanLog h 3 (.int n) := by
      rcases hn with rfl | rfl
      · exact hzero
      · rw [same]
        exact hnumber
    obtain ⟨u, hu⟩ := log_of_canLog (s := t) hcan text
    rw [hu] at hlog
    cases hlog

theorem applyEnvironment_error (he : s.applyEnvironment h = .error e) :
    ∃ cause, e.cause = .unwritten cause ∧ h.log.passesOver cause = false := by
  rw [applyEnvironment_eq] at he
  obtain ⟨f, -, t, ht⟩ := exists_of_foldlM_error he
  rcases applyVariable_cases h t f with ⟨u, hu⟩ | ⟨_, _, e', -, he', hlog⟩
  · rw [hu] at ht
    cases ht
  · rw [he'] at ht
    cases ht
    exact log_error hlog

end Settled

/-! ## All sources -/

section

variable {h : Host} {path : Option String} {entries overrides : List (Value × Value)}
  {settled : Settled} {e : Unsettled}

/-- The sources one after another: file, environment, overrides. -/
theorem settle_of_entries (hentries : entriesAt h path = .ok entries) :
    settle h path overrides = (do
      let s ← Settled.applyEntries h {} entries
      let s ← s.applyEnvironment h
      s.applyEntries h overrides) := by
  rw [settle, hentries]
  rfl

/-- Options that were settled on had a file to come from, if one is named. -/
theorem exists_entries (hsettled : settle h path overrides = .ok settled) :
    ∃ entries, entriesAt h path = .ok entries := by
  cases hentries : entriesAt h path with
  | ok entries => exact ⟨entries, rfl⟩
  | error cause =>
      rw [settle, hentries] at hsettled
      cases hsettled

theorem get_settle (hentries : entriesAt h path = .ok entries)
    (hsettled : settle h path overrides = .ok settled) (f : Field) :
    f.get settled.options = f.merged entries h overrides := by
  rw [settle_of_entries hentries] at hsettled
  obtain ⟨s, file, hsettled⟩ := exists_of_bind_eq_ok hsettled
  obtain ⟨t, environment, given⟩ := exists_of_bind_eq_ok hsettled
  rw [Settled.get_applyEntries f given, Settled.get_applyEnvironment f environment,
    Settled.get_applyEntries f file, Field.merged]
  cases f.lastGiven? overrides <;> cases f.fromEnvironment? h <;> rfl

/-- What has to be made a text can be: a number in a message, the values of text options, and what
messages about the others say. -/
structure CanSettle (h : Host) (entries : List (Value × Value)) : Prop where
  room : (h.room.inside (3 + h.log.calls)).allows 1 = true
  texts : ∀ x ∈ entries, IsTextual x → Settled.textFault? (h.room.inside 2) x.2 = none
  keys : ∀ x ∈ entries, CanLog h 2 x.1
  values : ∀ x ∈ entries, CanLog h 2 x.2

namespace CanSettle

/-- A number that can be logged as the value of an entry can be logged for a variable. -/
theorem canLog_number (hs : CanSettle h entries) {n : Int} (hn : CanLog h 2 (.int n)) :
    CanLog h 3 (.int n) := by
  intro cause fault
  rw [Value.writingFault?, if_pos hs.room] at fault
  have room : (h.room.inside (2 + h.log.calls)).allows 1 = true := by
    have room := hs.room
    cases hr : h.room with
    | none => rfl
    | some r =>
        simp only [hr, Room.inside, Room.allows, Option.map_some, Option.all_some,
          decide_eq_true_eq] at room ⊢
        omega
  exact hn cause (by rw [Value.writingFault?, if_pos room]; exact fault)

theorem canLog_zero (hs : CanSettle h entries) : CanLog h 3 (.int 0) := by
  intro cause fault
  have zero : Text.isWritable 0 = true := by decide +kernel
  rw [Value.writingFault?, if_pos hs.room, if_pos zero] at fault
  cases fault

theorem applyEntries (hs : CanSettle h entries) (s : Settled) {part : List (Value × Value)}
    (hpart : part ⊆ entries) : ∃ t, s.applyEntries h part = .ok t := by
  obtain ⟨t, ht, -⟩ := exists_foldlM (s := s) (fun _ => True) trivial fun x hx s _ => by
    obtain ⟨t, ht⟩ := Settled.applyEntry_ok (s := s) (hs.texts x (hpart hx))
      (hs.keys x (hpart hx)) (hs.values x (hpart hx))
    exact ⟨t, ht, trivial⟩
  exact ⟨t, ht⟩

theorem applyEnvironment (hs : CanSettle h entries) {s : Settled} {part : List (Value × Value)}
    (hpart : part ⊆ entries) (file : Settled.applyEntries h {} part = .ok s) :
    ∃ t, s.applyEnvironment h = .ok t := by
  refine Settled.applyEnvironment_ok hs.canLog_zero ?_
  have number := Settled.get_applyEntries .timeout file
  cases given : Field.timeout.lastGiven? part with
  | none =>
      rw [given] at number
      rw [show s.options.timeout = 0 from Datum.number.inj number]
      exact hs.canLog_zero
  | some d =>
      rw [given] at number
      obtain ⟨x, hx, hd⟩ := List.mem_filterMap.mp (List.mem_of_getLast? given)
      have value := hs.values x (hpart hx)
      obtain ⟨key, v⟩ := x
      rw [Field.given?] at hd
      split at hd
      · cases v <;> cases hd
        rw [show s.options.timeout = _ from Datum.number.inj number]
        exact hs.canLog_number value
      · cases hd

/-- A stream takes all that has to be logged, if the calls are not limited. -/
theorem of_stream (stream : h.log = .stream) (room : h.room = none)
    (texts : ∀ x ∈ entries, IsTextual x → Settled.textFault? none x.2 = none) :
    CanSettle h entries := by
  have all (v : Value) : CanLog h 2 v := fun cause fault => by
    rw [room] at fault
    rw [stream, LogHandler.passesOver, eq_longNumber_of_unlimited fault]
    rfl
  exact ⟨by rw [room]; rfl, by rw [room]; exact texts, fun x _ => all x.1, fun x _ => all x.2⟩

end CanSettle

theorem settle_of_canSettle (hentries : entriesAt h path = .ok entries)
    (hs : CanSettle h (entries ++ overrides)) :
    ∃ settled, settle h path overrides = .ok settled := by
  obtain ⟨s, file⟩ := hs.applyEntries {} (List.subset_append_left entries overrides)
  obtain ⟨t, environment⟩ := hs.applyEnvironment (List.subset_append_left entries overrides) file
  obtain ⟨u, given⟩ := hs.applyEntries t (List.subset_append_right entries overrides)
  refine ⟨u, ?_⟩
  rw [settle_of_entries hentries, file]
  show (s.applyEnvironment h >>= fun s => s.applyEntries h overrides) = _
  rw [environment]
  exact given

theorem settle_error (hentries : entriesAt h path = .ok entries)
    (he : settle h path overrides = .error e) :
    ∃ cause, e.cause = .unwritten cause ∧ (h.log.passesOver cause = false ∨
      ∃ x ∈ entries ++ overrides, IsTextual x ∧
        Settled.textFault? (h.room.inside 2) x.2 = some cause) := by
  have entry {s : Settled} {part : List (Value × Value)} (hpart : part ⊆ entries ++ overrides)
      (he : s.applyEntries h part = .error e) :
      ∃ cause, e.cause = .unwritten cause ∧ (h.log.passesOver cause = false ∨
        ∃ x ∈ entries ++ overrides, IsTextual x ∧
          Settled.textFault? (h.room.inside 2) x.2 = some cause) := by
    obtain ⟨x, hx, t, ht⟩ := exists_of_foldlM_error he
    obtain ⟨cause, hcause, handler | ⟨textual, fault⟩⟩ := Settled.applyEntry_error ht
    · exact ⟨cause, hcause, .inl handler⟩
    · exact ⟨cause, hcause, .inr ⟨x, hpart hx, textual, fault⟩⟩
  rw [settle_of_entries hentries] at he
  rcases error_of_bind_eq_error he with file | ⟨s, -, he⟩
  · exact entry (List.subset_append_left _ _) file
  rcases error_of_bind_eq_error he with environment | ⟨t, -, given⟩
  · obtain ⟨cause, hcause, handler⟩ := Settled.applyEnvironment_error environment
    exact ⟨cause, hcause, .inl handler⟩
  · exact entry (List.subset_append_right _ _) given

end

/-! ## Each option by itself -/

namespace Field

/-- Whether an entry gives the option something. -/
def takes (f : Field) (e : Value × Value) : Bool := (f.given? e).isSome

/-- No entry gives two options something. -/
theorem eq_of_takes {f g : Field} {e : Value × Value} (hf : f.takes e = true)
    (hg : g.takes e = true) : f = g := by
  have named {f : Field} (h : f.takes e = true) : f.isNamedBy e.1 = true := by
    rw [takes, given?] at h
    split at h
    · assumption
    · cases h
  exact eq_of_isNamedBy (named hf) (named hg)

/-- The sources of options: the entries of a file, the host with its environment, the overrides. -/
structure Sources where
  entries : List (Value × Value)
  host : Host
  overrides : List (Value × Value)

/-- Two sources say the same of the option, whatever else they say. -/
structure SameIn (f : Field) (x y : Sources) : Prop where
  entries : x.entries.filter f.takes = y.entries.filter f.takes
  environment : x.host.environment.get? f.variableName = y.host.environment.get? f.variableName
  overrides : x.overrides.filter f.takes = y.overrides.filter f.takes

theorem lastGiven?_eq (f : Field) {entries entries' : List (Value × Value)}
    (h : entries.filter f.takes = entries'.filter f.takes) :
    f.lastGiven? entries = f.lastGiven? entries' := by
  have taken (l : List (Value × Value)) : l.filterMap f.given? =
      (l.filter f.takes).filterMap f.given? := by
    rw [List.filterMap_filter]
    refine congrFun (congrArg List.filterMap (funext fun e => ?_)) l
    rw [takes]
    cases f.given? e <;> rfl
  rw [lastGiven?, lastGiven?, taken, taken entries', h]

theorem merged_eq (f : Field) {x y : Sources} (h : f.SameIn x y) :
    f.merged x.entries x.host x.overrides = f.merged y.entries y.host y.overrides := by
  rw [merged, merged, fromEnvironment?, fromEnvironment?, h.environment, f.lastGiven?_eq h.entries,
    f.lastGiven?_eq h.overrides]

end Field

/-- Each option comes to what its own sources make of it, and so it is the same wherever these say
the same of it; no entry or variable is about two options. Once there are the entries of the file,
the options are found unless the value of a text option has no text, or logging itself fails; an
entry that does not fit is no reason if the log is a stream and the calls are not limited. -/
theorem settle_merges {h : Host} {path : Option String} {entries : List (Value × Value)}
    (hentries : entriesAt h path = .ok entries) (overrides : List (Value × Value)) :
    (h.log = .stream → h.room = none →
      (∀ x ∈ entries ++ overrides, IsTextual x → Settled.textFault? none x.2 = none) →
      ∃ settled, settle h path overrides = .ok settled) ∧
    (CanSettle h (entries ++ overrides) → ∃ settled, settle h path overrides = .ok settled) ∧
    (∀ e, settle h path overrides = .error e →
      ∃ cause, e.cause = .unwritten cause ∧ (h.log.passesOver cause = false ∨
        ∃ x ∈ entries ++ overrides, IsTextual x ∧
          Settled.textFault? (h.room.inside 2) x.2 = some cause)) ∧
    (∀ settled, settle h path overrides = .ok settled →
      (∀ f : Field, f.get settled.options = f.merged entries h overrides) ∧
      ∀ (f : Field) (y : Field.Sources) (path' : Option String) (settled' : Settled),
        entriesAt y.host path' = .ok y.entries →
        settle y.host path' y.overrides = .ok settled' →
        f.SameIn ⟨entries, h, overrides⟩ y →
        f.get settled.options = f.get settled'.options) ∧
    (∀ (f g : Field) (e : Value × Value), f.takes e = true → g.takes e = true → f = g) ∧
    ∀ f g : Field, f.variableName = g.variableName → f = g := by
  refine ⟨fun stream room texts => ?_, settle_of_canSettle hentries, fun _ => settle_error hentries,
    fun settled hsettled => ⟨get_settle hentries hsettled,
      fun f y path' settled' hentries' hsettled' same => ?_⟩,
    fun _ _ _ => Field.eq_of_takes, fun _ _ => Field.variableName_injective⟩
  · exact settle_of_canSettle hentries (.of_stream stream room texts)
  · rw [get_settle hentries hsettled, get_settle hentries' hsettled']
    exact f.merged_eq same

/-- An options file in which a value that does not fit follows one that does. -/
def mixedOptions : List String :=
  ["importDataTypes: false\n", "import_data_types: 1\n", "stdump_timeout_seconds: 10\n",
   "frobnicate: yes\n"]

def mixedHost : Host where
  files := ⟨[(["o"], (mixedOptions.flatMap String.toList).map fun c => c.toNat.toUInt8)]⟩
  environment := ⟨[("STDUMP_IMPORT_STDUMP_TIMEOUT_SECONDS", "soon"),
    ("STDUMP_IMPORT_STDUMP_PATH", "tool"), ("STDUMP_IMPORT_OUTPUT_LINE_NUMBERS", "yes")]⟩
  log := .stream

/-- The last of them has a value of which no message can be made. -/
def mixedOverrides : List (Value × Value) :=
  [(.text "output_line_numbers", .bool false), (.text "outputLineNumbers", .text "on"),
    (.text "importGlobals", .int (.ofNat (.pow 10 5000)))]

/-- What does not fit leaves an option to what comes before it in its own source, or to the next
source. -/
theorem settle_merges_mixed :
    ∃ entries settled, entriesAt mixedHost (some "o") = .ok entries ∧
      settle mixedHost (some "o") mixedOverrides = .ok settled ∧
      settled.options =
        { importTypes := false, outputLines := false, toolPath := "tool", timeout := 10 } ∧
      ∀ f : Field, f.get settled.options = f.merged entries mixedHost mixedOverrides := by
  have found : (entriesAt mixedHost (some "o")).toOption.isSome = true := by decide +kernel
  have options : (settle mixedHost (some "o") mixedOverrides).toOption.map (·.options) = some
      { importTypes := false, outputLines := false, toolPath := "tool", timeout := 10 } := by
    decide +kernel
  cases hentries : entriesAt mixedHost (some "o") with
  | error cause =>
      rw [hentries] at found
      cases found
  | ok entries =>
      cases hsettled : settle mixedHost (some "o") mixedOverrides with
      | error e =>
          rw [hsettled] at options
          cases options
      | ok settled =>
          rw [hsettled] at options
          exact ⟨entries, settled, rfl, rfl, Option.some.inj options,
            ((settle_merges hentries mixedOverrides).2.2.2.1 settled hsettled).1⟩

end StabsImport.Import

import StabsImport.CommandLine.Command
import StabsImport.Proofs.Inputs
import StabsImport.Proofs.Precedence

/-!
# The input that the command chooses

A document file that is named on the command line is what is imported, and no tool is started. An
ELF file that is named there is what the tool is started on, unless another source names a document
file, which comes first then. Main statement: `run_chooses`.
-/

namespace StabsImport

/-! ## Documents that are imported -/

theorem Host.read_inside (h : Host) (calls : Nat) (path : String) :
    (h.inside calls).read path = h.read path := by
  have entry : Host.entry? (h.inside calls) = h.entry? := rfl
  have walked (location : Location) (parts : List String) :
      (h.inside calls).walk location parts = h.walk location parts := by
    induction parts generalizing location with
    | nil => rfl
    | cons part rest ih =>
        rw [Host.walk, Host.walk]
        simp only [entry, ih]
  rw [Host.read, Host.read, Host.locate, Host.locate]
  simp only [walked]

namespace Import

variable {i j : Importer} {o : Options} {p : Program} {h : Host} {bytes : Text.Bytes}

/-- A run that succeeds has imported the document that it found. -/
theorem run_succeeded (idle : i.phase = .idle) (success : (run i).1 = true) :
    ∃ d journal, inputDocument? (i.host.room.inside 1) i = some d ∧
      importWithin (i.host.room.inside 2) d (afterInput i journal .parsing) =
        (.ok (), (run i).2) := by
  have ends : Runs (importInputWithin (i.host.room.inside 1)) i
      (fun success j => success = true → ∃ d journal,
        inputDocument? (i.host.room.inside 1) i = some d ∧
          importWithin (i.host.room.inside 2) d (afterInput i journal .parsing) = (.ok (), j))
      fun _ _ => True := by
    refine runs_importInputWithin idle (fun _ _ h => by cases h) (fun _ _ _ _ => trivial)
      fun d journal found => ?_
    rw [Room.inside_inside]
    exact Runs.mono (Runs.self _ _) (fun _ j hj _ => ⟨d, journal, found, hj⟩)
      fun _ _ _ => trivial
  rw [Runs] at ends
  rw [run] at success ⊢
  rcases hrun : importInputWithin (i.host.room.inside 1) i with ⟨e | succeeded, j⟩
  · rw [hrun] at success
    cases success
  · rw [hrun] at success ends
    exact ends success

/-- A document that is found is written in the bytes that were got. -/
theorem exists_of_inputDocument {room : Room} {d : Document}
    (found : inputDocument? room i = some d) :
    ∃ bytes, (acquire i.options i.session.program i.host).1.2 = .ok bytes ∧
      (Document.readBytes (room.inside 1) bytes).2 = .ok d := by
  rw [inputDocument?] at found
  split at found
  · cases found
  · next bytes hbytes =>
      refine ⟨bytes, hbytes, ?_⟩
      cases hread : (Document.readBytes (room.inside 1) bytes).2 with
      | error e =>
          rw [hread] at found
          cases found
      | ok d' =>
          rw [hread] at found
          cases found
          rfl

theorem importWithin_host {room : Room} {d : Document} (parsing : i.phase = .parsing)
    (h : importWithin room d i = (.ok (), j)) : j.host = i.host := by
  have leaves : Runs (importWithin room d) i (fun _ j => j.host = i.host) fun _ _ => True :=
    (runs_importWithin_of_parsing parsing).mpr
      ((runStages_leaves parsing).mono (fun _ _ h => h.1) fun _ _ _ => trivial)
  rw [Runs, h] at leaves
  exact leaves

/-- A document file that is named is read, and nothing is started. -/
theorem acquire_of_json (named : o.jsonPath ≠ "") (hok : (acquire o p h).1.2 = .ok bytes) :
    h.read o.jsonPath = .ok bytes ∧ (acquire o p h).2 = h := by
  have asked : acquire o p h =
      (([], (h.read o.jsonPath).mapError (.unreadable o.jsonPath)), h) := by
    simp only [acquire, bind, StateT.bind, get, getThe, MonadStateOf.get, StateT.get, pure,
      named, ne_eq, not_false_eq_true, if_true]
    rfl
  rw [asked] at hok ⊢
  refine ⟨?_, rfl⟩
  cases hread : h.read o.jsonPath with
  | error cause =>
      rw [hread] at hok
      cases hok
  | ok content =>
      rw [hread] at hok
      cases hok
      rfl

theorem toolCall_command {elf option : String} {timeout : Int} {isTemporary : Bool}
    {call : ToolCall} (hcall : toolCall h elf option timeout isTemporary = .ok call) :
    ∃ tool, call.command = [tool, toolCommand, elf] := by
  rw [toolCall] at hcall
  cases hfound : findTool h option with
  | error e =>
      rw [hfound] at hcall
      cases hcall
  | ok tool =>
      rw [hfound] at hcall
      cases hheld : imageFor h elf with
      | error e =>
          rw [hheld] at hcall
          cases hcall
      | ok held =>
          rw [hheld] at hcall
          cases hcall
          exact ⟨tool, rfl⟩

/-- Only a tool that finished well has given a document: what it wrote. -/
theorem acquired_ok {timeout : Int} {outcome : ToolOutcome}
    (hok : (acquired timeout outcome).2 = .ok bytes) :
    ∃ errors, outcome = .finished 0 bytes errors := by
  cases outcome with
  | timedOut | limitTooLong | notStarted => cases hok
  | finished status output errors =>
      simp only [acquired, toolOutput] at hok
      split at hok
      · cases hok
      · next status =>
          split at hok
          · cases hok
          · split at hok
            · cases hok
            · cases hok
              exact ⟨errors, by rw [not_not.mp status]⟩

/-- An ELF file that is named is what the tool is started on, unless a document file is named. -/
theorem acquire_of_elf (unnamed : o.jsonPath = "") (named : o.elfPath ≠ "")
    (hok : (acquire o p h).1.2 = .ok bytes) :
    ∃ call tool errors, call.command = [tool, toolCommand, o.elfPath] ∧
      h.outcome = .finished 0 bytes errors ∧ (acquire o p h).2 = h.record call := by
  have started : acquire o p h =
      if h.isFile o.elfPath then runTool o.elfPath o.toolPath o.timeout false h
      else (([], .error (.elfNotFound o.elfPath)), h) := by
    simp only [acquire, bind, StateT.bind, get, getThe, MonadStateOf.get, StateT.get, pure,
      unnamed, named, ne_eq, not_true_eq_false, not_false_eq_true, if_true, if_false]
    split <;> rfl
  rw [started, runTool_apply] at hok ⊢
  split at hok
  · next isFile =>
      rw [if_pos isFile]
      split at hok
      · cases hok
      · next call hcall =>
          obtain ⟨tool, command⟩ := toolCall_command hcall
          obtain ⟨errors, outcome⟩ := acquired_ok hok
          exact ⟨call, tool, errors, command, outcome, rfl⟩
  · cases hok

end Import

end StabsImport

namespace StabsImport.CommandLine

open Import (Field Datum exists_of_bind_eq_ok)

/-! ## Values of options -/

/-- The text that stands for an option; a size is no text. -/
def Arguments.textOf (a : Arguments) : Setter → String
  | .config => a.config
  | .elf => a.elf
  | .json => a.json
  | .stdump => a.stdump
  | .output => a.output
  | .pointerSize => ""

section Setters

variable {p q : Progress} {value : String} {isGiven : Bool} {s t : Setter}

theorem applySetter_textOf (h : applySetter p value isGiven s = .ok q) (ht : t ≠ .pointerSize) :
    q.arguments.textOf t = if t = s then value else p.arguments.textOf t := by
  cases s with
  | elf | json =>
      rw [applySetter] at h
      split at h <;> cases h
      cases t <;> rfl
  | pointerSize =>
      rw [applySetter] at h
      split at h <;> cases h
      rw [if_neg ht]
      cases t <;> rfl
  | config | stdump | output =>
      cases h
      cases t <;> rfl

theorem applyValue_textOf (h : applyValue p value s = .ok q) (ht : t ≠ .pointerSize) :
    q.arguments.textOf t =
      if t = s then (if value = "--" then "" else value) else p.arguments.textOf t := by
  rw [applyValue] at h
  split at h
  · next hvalue => rw [applySetter_textOf h ht, if_neg hvalue]
  · next hvalue =>
      rw [if_pos (not_not.mp hvalue)]
      split at h
      · next hs =>
          cases h
          rw [if_neg (hs ▸ ht)]
          cases t <;> rfl
      · exact applySetter_textOf h ht

/-- At most one of the two input options is given, and only one that is given holds a text. -/
structure Progress.Exclusive (p : Progress) : Prop where
  elf : p.arguments.elf ≠ "" → p.hasElf = true
  json : p.arguments.json ≠ "" → p.hasJson = true
  one : p.hasElf = true → p.hasJson = false

theorem applySetter_exclusive (hp : p.Exclusive) (given : value ≠ "" → isGiven = true)
    (h : applySetter p value isGiven s = .ok q) : q.Exclusive := by
  cases s with
  | elf =>
      rw [applySetter] at h
      split at h <;> cases h
      next refused =>
        exact ⟨fun hv => by simp [given hv], hp.json, by have := hp.one; grind⟩
  | json =>
      rw [applySetter] at h
      split at h <;> cases h
      next refused =>
        exact ⟨hp.elf, fun hv => by simp [given hv], by have := hp.one; grind⟩
  | pointerSize =>
      rw [applySetter] at h
      split at h <;> cases h
      exact ⟨hp.elf, hp.json, hp.one⟩
  | config | stdump | output =>
      cases h
      exact ⟨hp.elf, hp.json, hp.one⟩

theorem applyValue_exclusive (hp : p.Exclusive) (h : applyValue p value s = .ok q) :
    q.Exclusive := by
  rw [applyValue] at h
  split at h
  · exact applySetter_exclusive hp (fun hv => decide_eq_true hv) h
  · split at h
    · cases h
      exact ⟨hp.elf, hp.json, hp.one⟩
    · exact applySetter_exclusive hp (fun _ => rfl) h

end Setters

/-! ## Reading words -/

section Words

variable {p q : Progress} {words : List (Word × String)}

/-- What each step keeps, a run keeps; only options that occur among the words are set. -/
theorem readWords_keeps {P : Progress → Prop}
    (switch : ∀ p s a, P p → applySwitch p.arguments s = .ok a → P { p with arguments := a })
    (setter : ∀ p q s value, (∃ v w, (Word.flag (.setter s) v, w) ∈ words) → P p →
      applyValue p value s = .ok q → P q)
    (extra : ∀ p, P p → P { p with hasExtra := true })
    (h : readWords p words = .ok q) (hp : P p) : P q := by
  induction p, words using readWords.induct with
  | case1 p =>
      cases h
      exact hp
  | case2 p s w rest ih =>
      rw [readWords] at h
      obtain ⟨a, ha, h⟩ := exists_of_bind_eq_ok h
      refine ih a (fun p q s value ⟨v, w, hw⟩ => ?_) h (switch p s a hp ha)
      exact setter p q s value ⟨v, w, List.mem_cons_of_mem _ hw⟩
  | case3 => cases h
  | case4 p s value w rest ih =>
      rw [readWords] at h
      obtain ⟨p', hp', h⟩ := exists_of_bind_eq_ok h
      refine ih p' (fun p q s value ⟨v, w, hw⟩ => ?_) h
        (setter p p' s value ⟨_, _, List.mem_cons_self⟩ hp hp')
      exact setter p q s value ⟨v, w, List.mem_cons_of_mem _ hw⟩
  | case5 p s w value rest ih =>
      rw [readWords] at h
      obtain ⟨p', hp', h⟩ := exists_of_bind_eq_ok h
      refine ih p' (fun p q s value ⟨v, w, hw⟩ => ?_) h
        (setter p p' s value ⟨_, _, List.mem_cons_self⟩ hp hp')
      exact setter p q s value ⟨v, w, List.mem_cons_of_mem _ (List.mem_cons_of_mem _ hw)⟩
  | case6 p s w tail stray =>
      rw [readWords] at h
      · cases h
      · exact stray
  | case7 p head rest _ _ _ _ _ ih =>
      rw [readWords] at h
      · refine ih (fun p q s value ⟨v, w, hw⟩ => ?_) h (extra p hp)
        exact setter p q s value ⟨v, w, List.mem_cons_of_mem _ hw⟩
      all_goals assumption

theorem applySwitch_textOf {a b : Arguments} {s : Switch} (h : applySwitch a s = .ok b)
    (t : Setter) : b.textOf t = a.textOf t := by
  cases s <;> cases h <;> cases t <;> rfl

theorem readWords_exclusive (h : readWords {} words = .ok q) : q.Exclusive := by
  refine readWords_keeps (P := Progress.Exclusive) (fun p s a hp ha => ?_)
    (fun p q s value _ hp hq => applyValue_exclusive hp hq)
    (fun p hp => ⟨hp.elf, hp.json, hp.one⟩) h ⟨by simp, by simp, by simp⟩
  have elf : a.elf = p.arguments.elf := applySwitch_textOf ha .elf
  have json : a.json = p.arguments.json := applySwitch_textOf ha .json
  exact ⟨fun he => hp.elf (elf ▸ he), fun hj => hp.json (json ▸ hj), hp.one⟩

/-- An option that does not occur among the words holds what it held. -/
theorem readWords_textOf {t : Setter} (ht : t ≠ .pointerSize)
    (none : ∀ v w, (Word.flag (.setter t) v, w) ∉ words) (h : readWords p words = .ok q) :
    q.arguments.textOf t = p.arguments.textOf t := by
  refine readWords_keeps (P := fun r => r.arguments.textOf t = p.arguments.textOf t)
    (fun r s a hr ha => (applySwitch_textOf ha t).trans hr)
    (fun r r' s value ⟨v, w, hw⟩ hr hr' => ?_) (fun r hr => hr) h rfl
  rw [applyValue_textOf hr' ht, if_neg]
  · exact hr
  · rintro rfl
    exact none v w hw

/-- Reading comes to every option, as no option is taken for a value. -/
theorem readWords_append {f : Flag} {v : Option String} {w : String}
    {later : List (Word × String)} :
    ∀ (first : List (Word × String)) (p : Progress),
      readWords p (first ++ (.flag f v, w) :: later) = .ok q →
        ∃ p', readWords p' ((.flag f v, w) :: later) = .ok q
  | [], p, h => ⟨p, h⟩
  | (.flag (.switch s) none, _) :: rest, p, h => by
      rw [List.cons_append, readWords] at h
      obtain ⟨a, -, h⟩ := exists_of_bind_eq_ok h
      exact readWords_append rest _ h
  | (.flag (.switch s) (some _), _) :: rest, p, h => by cases h
  | (.flag (.setter s) (some _), _) :: rest, p, h => by
      rw [List.cons_append, readWords] at h
      obtain ⟨a, -, h⟩ := exists_of_bind_eq_ok h
      exact readWords_append rest _ h
  | [(.flag (.setter s) none, _)], p, h => by cases h
  | (.flag (.setter s) none, _) :: (.plain, _) :: rest, p, h => by
      rw [List.cons_append, List.cons_append, readWords] at h
      obtain ⟨a, -, h⟩ := exists_of_bind_eq_ok h
      exact readWords_append rest _ h
  | (.flag (.setter s) none, _) :: (.flag _ _, _) :: rest, p, h
  | (.flag (.setter s) none, _) :: (.unknown, _) :: rest, p, h
  | (.flag (.setter s) none, _) :: (.separator, _) :: rest, p, h => by cases h
  | (.plain, _) :: rest, p, h | (.unknown, _) :: rest, p, h | (.separator, _) :: rest, p, h =>
      readWords_append rest _ h

end Words


/-! ## From arguments to words -/

/-- Arguments that stand before others, and hold no separator, are words of their own. -/
theorem wordsOf_append {rest : List String} :
    ∀ {before : List String} {words : List (Word × String)}, "--" ∉ before →
      wordsOf (before ++ rest) = .ok words →
        ∃ first later, words = first ++ later ∧ wordsOf rest = .ok later
  | [], words, _, h => ⟨[], words, rfl, h⟩
  | s :: before, words, apart, h => by
      rw [List.mem_cons, not_or] at apart
      rw [List.cons_append, wordsOf, if_neg (Ne.symm apart.1)] at h
      obtain ⟨word, -, h⟩ := exists_of_bind_eq_ok h
      obtain ⟨more, hmore, h⟩ := exists_of_bind_eq_ok h
      cases h
      obtain ⟨first, later, rfl, hlater⟩ := wordsOf_append apart.2 hmore
      exact ⟨(word, s) :: first, later, rfl, hlater⟩

theorem wordsOf_cons {s : String} {rest : List String} {words : List (Word × String)}
    (hs : s ≠ "--") (h : wordsOf (s :: rest) = .ok words) :
    ∃ word later, words = (word, s) :: later ∧ wordOf s = .ok word ∧
      wordsOf rest = .ok later := by
  rw [wordsOf, if_neg hs] at h
  obtain ⟨word, hword, h⟩ := exists_of_bind_eq_ok h
  obtain ⟨later, hlater, h⟩ := exists_of_bind_eq_ok h
  cases h
  exact ⟨word, later, rfl, hword, hlater⟩

/-- A word that is an option is one by itself. -/
theorem wordOf_of_mem {f : Flag} {v : Option String} {w : String} :
    ∀ {args : List String} {words : List (Word × String)}, wordsOf args = .ok words →
      (.flag f v, w) ∈ words → w ∈ args ∧ wordOf w = .ok (.flag f v)
  | [], words, h, hw => by
      cases h
      cases hw
  | s :: rest, words, h, hw => by
      by_cases separator : s = "--"
      · rw [wordsOf, if_pos separator] at h
        cases h
        simp at hw
      · obtain ⟨word, later, rfl, hword, hlater⟩ := wordsOf_cons separator h
        rcases List.mem_cons.mp hw with first | hw
        · cases first
          exact ⟨List.mem_cons_self, hword⟩
        · obtain ⟨mem, hw⟩ := wordOf_of_mem hlater hw
          exact ⟨List.mem_cons_of_mem _ mem, hw⟩

/-- An option stands among the arguments, for the last time, with this value: the next argument, or
what follows `=`. No separator stands before it. -/
inductive Gives (s : Setter) (value : String) : List String → Prop where
  | apart {before after : List String} {option : String} (clear : "--" ∉ before)
      (named : wordOf option = .ok (.flag (.setter s) none))
      (last : ∀ w ∈ after, ∀ v, wordOf w ≠ .ok (.flag (.setter s) v)) :
      Gives s value (before ++ option :: value :: after)
  | joined {before after : List String} {option : String} (clear : "--" ∉ before)
      (named : wordOf option = .ok (.flag (.setter s) (some value)))
      (last : ∀ w ∈ after, ∀ v, wordOf w ≠ .ok (.flag (.setter s) v)) :
      Gives s value (before ++ option :: after)

section Given

variable {args : List String} {a : Arguments} {s : Setter} {value : String}

theorem exists_of_read (h : Arguments.read args = .ok a) :
    ∃ words p, wordsOf args = .ok words ∧ readWords {} words = .ok p ∧ p.arguments = a := by
  obtain ⟨words, hwords, h⟩ := exists_of_bind_eq_ok h
  obtain ⟨p, hp, h⟩ := exists_of_bind_eq_ok h
  refine ⟨words, p, hwords, hp, ?_⟩
  split at h
  · cases h
  · cases h
    rfl

theorem ne_separator_of_wordOf {option : String} {f : Flag} {v : Option String}
    (h : wordOf option = .ok (.flag f v)) : option ≠ "--" := by
  rintro rfl
  revert h
  rw [show wordOf "--" = .error .badUsage by decide]
  exact nofun

/-- Reading comes to an option that stands before any separator, in some state. -/
theorem exists_of_read_option {before rest : List String} {option : String} {f : Flag}
    {v : Option String} (h : Arguments.read (before ++ option :: rest) = .ok a)
    (clear : "--" ∉ before) (named : wordOf option = .ok (.flag f v)) :
    ∃ p q later, wordsOf rest = .ok later ∧
      readWords p ((.flag f v, option) :: later) = .ok q ∧ q.arguments = a := by
  obtain ⟨words, q, hwords, hq, ha⟩ := exists_of_read h
  obtain ⟨first, next, rfl, hnext⟩ := wordsOf_append clear hwords
  obtain ⟨word, later, rfl, hword, hlater⟩ := wordsOf_cons (ne_separator_of_wordOf named) hnext
  cases named.symm.trans hword
  obtain ⟨p, hp⟩ := readWords_append first {} hq
  exact ⟨p, q, later, hlater, hp, ha⟩

/-- What an option is given for the last time is its value. -/
theorem textOf_of_gives (h : Arguments.read args = .ok a) (given : Gives s value args)
    (hvalue : value ≠ "--") (hs : s ≠ .pointerSize) : a.textOf s = value := by
  have rest {after : List String} {later : List (Word × String)} {p p' q : Progress}
      (last : ∀ w ∈ after, ∀ v, wordOf w ≠ .ok (.flag (.setter s) v))
      (hlater : wordsOf after = .ok later) (hp : applyValue p value s = .ok p')
      (hq : readWords p' later = .ok q) : q.arguments.textOf s = value := by
    rw [readWords_textOf hs (fun v w hw => ?_) hq, applyValue_textOf hp hs, if_pos rfl,
      if_neg hvalue]
    obtain ⟨mem, hw⟩ := wordOf_of_mem hlater hw
    exact last w mem v hw
  cases given with
  | apart clear named last =>
      obtain ⟨p, q, next, hnext, hp, rfl⟩ := exists_of_read_option h clear named
      obtain ⟨word, later, rfl, -, hlater⟩ := wordsOf_cons hvalue hnext
      cases word with
      | plain =>
          rw [readWords] at hp
          obtain ⟨p', hp', hp⟩ := exists_of_bind_eq_ok hp
          exact rest last hlater hp' hp
      | flag | unknown | separator => cases hp
  | joined clear named last =>
      obtain ⟨p, q, later, hlater, hp, rfl⟩ := exists_of_read_option h clear named
      rw [readWords] at hp
      obtain ⟨p', hp', hp⟩ := exists_of_bind_eq_ok hp
      exact rest last hlater hp' hp

/-- The two input options are not both given. -/
theorem json_of_elf (h : Arguments.read args = .ok a) (helf : a.elf ≠ "") : a.json = "" := by
  obtain ⟨words, q, -, hq, rfl⟩ := exists_of_read h
  have exclusive := readWords_exclusive hq
  by_contra hjson
  have absent := exclusive.one (exclusive.elf helf)
  rw [exclusive.json hjson] at absent
  cases absent

end Given

/-! ## Overrides -/

/-- An override that is about another option gives this one nothing. -/
theorem filterMap_given_other {f : Field} {name : String} {v : Yaml.Value} (c : Prop) [Decidable c]
    (other : f.isNamedBy (.text name) = false) :
    ((if c then [] else [(name, v)]).map fun e => (Yaml.Value.text e.1, e.2)).filterMap
      f.given? = [] := by
  split
  · rfl
  · simp [Field.given?, other]

/-- The option of an import that an option of the command overrides. -/
def Setter.field? : Setter → Option Field
  | .elf => some .elfPath
  | .json => some .jsonPath
  | .stdump => some .toolPath
  | _ => none

/-- What is given on the command line is the one override of its option. -/
theorem lastGiven_overrides (a : Arguments) {s : Setter} {f : Field} (hf : s.field? = some f) :
    f.lastGiven? a.overrides =
      if a.textOf s = "" then none else some (.text (a.textOf s)) := by
  cases s <;> cases hf
  all_goals
    simp (disch := decide) only [Field.lastGiven?, Arguments.overrides, List.map_append,
      List.filterMap_append, filterMap_given_other]
    split
    · next empty => exact (if_pos empty).symm
    · next given => exact (if_neg given).symm

/-! ## What the command imports -/

section Imports

variable {a : Arguments} {h : Host} {o : Outcome}

/-- What the command delivers comes of importing the document that is written in these bytes. -/
def Delivers (a : Arguments) (h : Host) (bytes : Text.Bytes) (o : Outcome) : Prop :=
  ∃ settled d journal i, Import.settle (h.inside 1) (some a.config) a.overrides = .ok settled ∧
    (Document.readBytes (h.room.inside 3) bytes).2 = .ok d ∧
    Import.importWithin (h.room.inside 3) d
      (Import.afterInput (importerOf a settled.options h) journal .parsing) = (.ok (), i) ∧
    o = deliver a i (settled.warnings ++ i.session.journal.logTexts)

theorem deliver_calls (a : Arguments) (i : Importer) (log : List String) :
    (deliver a i log).host.calls = i.host.calls := by
  rw [deliver]
  split
  · rfl
  · dsimp only
    split
    · rfl
    · split
      · next host hwrite =>
          rw [Host.write] at hwrite
          cases hplace : i.host.place a.output with
          | error e =>
              rw [hplace] at hwrite
              cases hwrite
          | ok location =>
              rw [hplace] at hwrite
              cases hwrite
              rfl
      · rfl

/-- A command that ends well has got a document, with the options it settled on. -/
theorem importWith_delivers (hend : (importWith a h).ending = .exit 0) :
    ∃ settled bytes, Import.settle (h.inside 1) (some a.config) a.overrides = .ok settled ∧
      (Import.acquire settled.options (emptyProgram a) (h.inside 1)).1.2 = .ok bytes ∧
      (importWith a h).host.calls =
        (Import.acquire settled.options (emptyProgram a) (h.inside 1)).2.calls ∧
      Delivers a h bytes (importWith a h) := by
  rw [importWith] at hend ⊢
  cases hsettled : Import.settle (h.inside 1) (some a.config) a.overrides with
  | error e =>
      rw [hsettled] at hend
      dsimp only at hend
      split at hend <;> cases hend
  | ok settled =>
      rw [hsettled] at hend
      dsimp only at hend ⊢
      by_cases success : (Import.run (importerOf a settled.options h)).1 = true
      · obtain ⟨d, journal, found, himport⟩ := Import.run_succeeded rfl success
        obtain ⟨bytes, hacquire, hbytes⟩ := Import.exists_of_inputDocument found
        have room (calls : Nat) : (importerOf a settled.options h).host.room.inside calls =
            h.room.inside (1 + calls) := Room.inside_inside ..
        rw [Room.inside_inside, room] at hbytes
        have host := Import.importWithin_host rfl himport
        rw [room] at himport
        rw [if_pos success, deliver_calls, host]
        exact ⟨settled, bytes, rfl, hacquire, rfl, settled, d, journal, _, hsettled, hbytes,
          himport, rfl⟩
      · rw [if_neg success] at hend
        cases hend

/-- A command that ends well has imported the document file that its arguments name, and has started
no tool then. If they name an ELF file, it has started the tool on that and imported what the tool
wrote, as long as neither the environment nor the options file names a document file; if one of them
does, the command has imported that file and started no tool. -/
theorem run_chooses {args : List String} (hread : Arguments.read args = .ok a)
    (hend : (run args h).ending = .exit 0) :
    (∀ (s : Setter) (value : String), Gives s value args → value ≠ "--" → s ≠ .pointerSize →
      a.textOf s = value) ∧
    (a.json ≠ "" → ∃ bytes, h.read a.json = .ok bytes ∧ (run args h).host.calls = h.calls ∧
      Delivers a h bytes (run args h)) ∧
    (a.elf ≠ "" → ∃ entries path, Import.entriesAt (h.inside 1) (some a.config) = .ok entries ∧
      Field.jsonPath.merged entries h [] = .text path ∧
      (path = "" → ∃ call tool output errors, call.command = [tool, Import.toolCommand, a.elf] ∧
        h.outcome = .finished 0 output errors ∧ (run args h).host.calls = h.calls ++ [call] ∧
        Delivers a h output (run args h)) ∧
      (path ≠ "" → ∃ bytes, h.read path = .ok bytes ∧ (run args h).host.calls = h.calls ∧
        Delivers a h bytes (run args h))) := by
  have hrun : run args h = importWith a h := by rw [run, hread]
  rw [hrun] at hend ⊢
  obtain ⟨settled, bytes, hsettled, hacquire, hcalls, delivers⟩ := importWith_delivers hend
  obtain ⟨entries, hentries⟩ := Import.exists_entries hsettled
  have json := Import.get_settle hentries hsettled .jsonPath
  have elf := Import.get_settle hentries hsettled .elfPath
  rw [Field.merged, lastGiven_overrides a (s := .json) rfl] at json
  rw [Field.merged, lastGiven_overrides a (s := .elf) rfl] at elf
  -- A document file that the options name has been read, whatever source names it.
  have fromFile (named : settled.options.jsonPath ≠ "") :
      h.read settled.options.jsonPath = .ok bytes ∧ (importWith a h).host.calls = h.calls := by
    obtain ⟨hread, same⟩ := Import.acquire_of_json named hacquire
    rw [Host.read_inside] at hread
    exact ⟨hread, by rw [hcalls, same]; rfl⟩
  refine ⟨fun s value => textOf_of_gives hread, fun hjson => ?_, fun helf => ?_⟩
  · have path : settled.options.jsonPath = a.json := by
      rw [if_neg (show a.textOf .json ≠ "" from hjson)] at json
      exact Datum.text.inj json
    obtain ⟨content, calls⟩ := fromFile (path ▸ hjson)
    exact ⟨bytes, path ▸ content, calls, delivers⟩
  · have path : settled.options.elfPath = a.elf := by
      rw [if_neg (show a.textOf .elf ≠ "" from helf)] at elf
      exact Datum.text.inj elf
    rw [if_pos (show a.textOf .json = "" from json_of_elf hread helf)] at json
    refine ⟨entries, settled.options.jsonPath, hentries, json.symm, fun unnamed => ?_,
      fun named => ?_⟩
    · obtain ⟨call, tool, errors, command, outcome, started⟩ :=
        Import.acquire_of_elf unnamed (path ▸ helf) hacquire
      refine ⟨call, tool, bytes, errors, path ▸ command, outcome, ?_, delivers⟩
      rw [hcalls, started]
      rfl
    · obtain ⟨content, calls⟩ := fromFile named
      exact ⟨bytes, content, calls, delivers⟩

/-- An ELF file, which the tool has a document for, and a document file beside it. -/
def gameHost (environment : Ledger String String) : Host where
  files := ⟨[(["game.elf"], [1, 2, 3]),
    (["other.json"], Document.bytesOf ["\x7b\"files\":[],\"deduplicated_types\":[]\x7d"])]⟩
  environment
  tools := ⟨[("stdump", "/usr/bin/stdump")]⟩
  outcome := .finished 0
    (Document.bytesOf ["\x7b\"version\":1,\"files\":[],\"deduplicated_types\":[]\x7d"]) []
  room := .usual

/-- The tool is started on the ELF file. -/
theorem run_chooses_elf :
    ∃ call tool, call.command = [tool, Import.toolCommand, "game.elf"] ∧
      (run ["--elf", "game.elf"] (gameHost {})).host.calls = [call] := by
  have hend : (run ["--elf", "game.elf"] (gameHost {})).ending = .exit 0 := by decide +kernel
  have chosen := (run_chooses (a := { elf := "game.elf" }) (by decide) hend).2.2 (by decide)
  obtain ⟨entries, path, hentries, hpath, fromTool, -⟩ := chosen
  cases hentries
  cases hpath
  obtain ⟨call, tool, -, -, command, -, calls, -⟩ := fromTool rfl
  exact ⟨call, tool, command, calls⟩

/-- A document file that the environment names is imported in place of the ELF file that is given,
and no tool is started. -/
theorem run_displaces :
    let host := gameHost ⟨[("STDUMP_IMPORT_OVERRIDE_JSON_PATH", "other.json")]⟩
    Gives .elf "game.elf" ["--elf", "game.elf"] ∧
      (run ["--elf", "game.elf"] host).ending = .exit 0 ∧
      (run ["--elf", "game.elf"] host).host.calls = [] :=
  ⟨show Gives .elf "game.elf" ([] ++ "--elf" :: "game.elf" :: []) from
    .apart (by decide) (by decide) nofun, by decide +kernel, by decide +kernel⟩

end Imports

end StabsImport.CommandLine

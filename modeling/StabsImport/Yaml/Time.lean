import StabsImport.Text.Integer
import StabsImport.Yaml.Fault

/-!
# Dates and times

A day of the calendar, with or without a time of that day and its distance from universal time.
-/

namespace StabsImport.Yaml

/-- The numbers of a time as they are written. An offset of no minutes may be written as a mark. -/
structure Clock where
  hour : Nat
  minute : Nat
  second : Nat
  microsecond : Nat := 0
  /-- In minutes, to the east. -/
  offset : Option Int := none
  deriving DecidableEq, Repr, Inhabited

structure Time where
  year : Nat
  month : Nat
  day : Nat
  clock : Option Clock := none
  deriving DecidableEq, Repr, Inhabited

namespace Time

/-! ## Reading -/

/-- A number of at least and at most so many digits, and the characters after it. -/
def digits? (least most : Nat) (cs : List Char) : Option (Nat × List Char) :=
  let run := (cs.take most).takeWhile Char.isDigit
  if run.length < least then none
  else (Text.ofBase? 10 run).map fun n => (n, cs.drop run.length)

def after? (mark : Char) : List Char → Option (List Char)
  | c :: rest => if c = mark then some rest else none
  | [] => none

/-- Six places of a fraction, and the characters after all of it. -/
def fraction : List Char → Nat × List Char
  | '.' :: rest =>
      let run := rest.takeWhile Char.isDigit
      let places := (run ++ List.replicate 6 '0').take 6
      ((Text.ofBase? 10 places).getD 0, rest.drop run.length)
  | cs => (0, cs)

/-- An offset at the end of a time. -/
def offset? (cs : List Char) : Option (Option Int) :=
  let inked := cs.dropWhile fun c => c == ' ' || c == '\t'
  match inked with
  | [] => if cs.isEmpty then some none else none
  | ['Z'] => some (some 0)
  | sign :: rest => do
      if sign ≠ '+' ∧ sign ≠ '-' then none
      let (hours, rest) ← digits? 1 2 rest
      let minutes ←
        match rest with
        | [] => some 0
        | rest => do
            let (minutes, rest) ← digits? 2 2 (← after? ':' rest)
            if rest.isEmpty then some minutes else none
      let total : Int := 60 * hours + minutes
      return some (if sign = '-' then -total else total)

/-- What parts a day from the time: one letter, or gaps. -/
def separated? : List Char → Option (List Char)
  | 'T' :: rest | 't' :: rest => some rest
  | cs =>
      let rest := cs.dropWhile fun c => c == ' ' || c == '\t'
      if rest.length < cs.length then some rest else none

def clock? (cs : List Char) : Option Clock := do
  let (hour, cs) ← digits? 1 2 (← separated? cs)
  let (minute, cs) ← digits? 2 2 (← after? ':' cs)
  let (second, cs) ← digits? 2 2 (← after? ':' cs)
  let (microsecond, cs) := fraction cs
  return { hour, minute, second, microsecond, offset := ← offset? cs }

/-- One line feed may end a time. -/
def ofText? (s : String) : Option Time := do
  let (year, cs) ← digits? 4 4 (Text.withoutLineFeed s.toList)
  let (month, cs) ← digits? 1 2 (← after? '-' cs)
  let (day, cs) ← digits? 1 2 (← after? '-' cs)
  if cs.isEmpty then return { year, month, day }
  else return { year, month, day, clock := some (← clock? cs) }

/-- A day by itself is taken for one only if all its places are written. -/
def isPlain (s : String) : Bool :=
  match ofText? s with
  | some t => t.clock.isSome || (Text.withoutLineFeed s.toList).length == 10
  | none => false

/-! ## Checking -/

def isLeap (year : Nat) : Bool := year % 4 == 0 && (year % 100 != 0 || year % 400 == 0)

def daysIn (year month : Nat) : Nat :=
  if month == 2 then if isLeap year then 29 else 28
  else if [4, 6, 9, 11].contains month then 30
  else 31

/-- The days before a year and a month. -/
def daysBefore (year month : Nat) : Nat :=
  let years := year - 1
  (List.range month).foldl (fun n m => if m = 0 then n else n + daysIn year m)
    (365 * years + years / 4 - years / 100 + years / 400)

/-- Microseconds since the first day, on the clock or, if the offset is known, in universal time. -/
def instant (t : Time) (c : Clock) : Int :=
  let minutes : Int :=
    ((24 * (daysBefore t.year t.month + t.day) + c.hour) * 60 + c.minute : Nat) - c.offset.getD 0
  (minutes * 60 + c.second) * 1000000 + c.microsecond

/-- Whether two times are the same. A day is no time of that day, and a time of unknown offset is
none of a known one. -/
def same (s t : Time) : Bool :=
  match s.clock, t.clock with
  | none, none => s == t
  | some c, some d => c.offset.isSome == d.offset.isSome && s.instant c == t.instant d
  | _, _ => false

/-- A span of minutes, in days and the seconds of a day. -/
def spanText (minutes : Int) : String :=
  let days := minutes.fdiv 1440
  let seconds := minutes.fmod 1440 * 60
  let parts :=
    (if days ≠ 0 then [s!"days={days}"] else []) ++
      (if seconds ≠ 0 then [s!"seconds={seconds}"] else [])
  "datetime.timedelta(" ++ (if parts.isEmpty then "0" else ", ".intercalate parts) ++ ")"

def checkOffset (c : Clock) : Except Fault Unit :=
  match c.offset with
  | some minutes =>
      if minutes ≤ -1440 ∨ 1440 ≤ minutes then .error (.wideOffset (spanText minutes)) else .ok ()
  | none => .ok ()

def checkDay (t : Time) : Except Fault Unit :=
  if t.year < 1 then .error (.outOfRange (.year t.year))
  else if t.month < 1 || 12 < t.month then .error (.outOfRange .month)
  else if t.day < 1 || daysIn t.year t.month < t.day then .error (.outOfRange .day)
  else .ok ()

def checkClock (c : Clock) : Except Fault Unit :=
  if 23 < c.hour then .error (.outOfRange .hour)
  else if 59 < c.minute then .error (.outOfRange .minute)
  else if 59 < c.second then .error (.outOfRange .second)
  else .ok ()

/-- The offset is looked at first. -/
def check (t : Time) : Except Fault Time := do
  t.clock.forM checkOffset
  checkDay t
  t.clock.forM checkClock
  return t

/-! ## Writing -/

/-- The form of a time inside a message. The last parts are left out while they are zero. -/
def shown (t : Time) : String :=
  let day := s!"{t.year}, {t.month}, {t.day}"
  match t.clock with
  | none => s!"datetime.date({day})"
  | some c =>
      let second := if c.second ≠ 0 || c.microsecond ≠ 0 then s!", {c.second}" else ""
      let micro := if c.microsecond ≠ 0 then s!", {c.microsecond}" else ""
      let zone :=
        match c.offset with
        | none => ""
        | some 0 => ", tzinfo=datetime.timezone.utc"
        | some minutes => ", tzinfo=datetime.timezone(" ++ spanText minutes ++ ")"
      s!"datetime.datetime({day}, {c.hour}, {c.minute}" ++ second ++ micro ++ zone ++ ")"

/-- How many values stand inside one another in that form: an offset of no minutes is one inside the
time, and in any other there is a span. -/
def depth (t : Time) : Nat :=
  match t.clock.bind (·.offset) with
  | none => 1
  | some minutes => if minutes = 0 then 2 else 3

def pad (width n : Nat) : String := Text.padLeft width (toString n)

def offsetText (minutes : Int) : String :=
  let n := minutes.natAbs
  (if minutes < 0 then "-" else "+") ++ pad 2 (n / 60) ++ ":" ++ pad 2 (n % 60)

/-- A time by itself. -/
def text (t : Time) : String :=
  let day := pad 4 t.year ++ "-" ++ pad 2 t.month ++ "-" ++ pad 2 t.day
  match t.clock with
  | none => day
  | some c =>
      let micro := if c.microsecond ≠ 0 then "." ++ pad 6 c.microsecond else ""
      day ++ " " ++ pad 2 c.hour ++ ":" ++ pad 2 c.minute ++ ":" ++ pad 2 c.second ++ micro ++
        c.offset.elim "" offsetText

end Time

end StabsImport.Yaml

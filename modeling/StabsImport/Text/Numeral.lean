import StabsImport.Text.Quoted

/-!
# Whole numbers from text

An optional sign and digits, with white space around them and lone underscores between them. A
prefix may repeat the base. A decimal number has a greatest length, read or written; a base that is
a power of two sets none.
-/

namespace StabsImport.Text

/-- Why a text is not taken for a whole number. -/
inductive NumeralFault where
  | malformed
  | tooLong (digits : Nat)
  deriving DecidableEq, Repr

namespace Numeral

/-- A digit of a base of at most sixteen. -/
def digit? (base : Nat) (c : Char) : Option Nat :=
  ((decimalDigit? c).or (hexDigit? c)).filter (· < base)

/-- What digits are worth, how many they are, and the characters after them. -/
structure Run where
  value : Nat := 0
  length : Nat := 0
  rest : List Char := []
  deriving DecidableEq, Repr, Inhabited

/-- Digits up to the first character that is none. An underscore stands only before a digit. -/
def runFrom (base value length : Nat) : List Char → Option Run
  | [] => some { value, length }
  | '_' :: c :: rest =>
      match digit? base c with
      | some d => runFrom base (base * value + d) (length + 1) rest
      | none => none
  | c :: rest =>
      if c == '_' then none
      else
        match digit? base c with
        | some d => runFrom base (base * value + d) (length + 1) rest
        | none => some { value, length, rest := c :: rest }

/-- At least one digit, which comes first. -/
def run? (base : Nat) : List Char → Option Run
  | [] => none
  | c :: rest =>
      match digit? base c with
      | some d => runFrom base d 1 rest
      | none => none

def isPrefixLetter (base : Nat) (c : Char) : Bool :=
  match base with
  | 2 => c == 'b' || c == 'B'
  | 8 => c == 'o' || c == 'O'
  | 16 => c == 'x' || c == 'X'
  | _ => false

/-- Digits without the prefix of their base, which an underscore may part from them. -/
def withoutPrefix (base : Nat) : List Char → List Char
  | '0' :: letter :: rest =>
      if isPrefixLetter base letter then
        match rest with
        | '_' :: rest => rest
        | rest => rest
      else '0' :: letter :: rest
  | cs => cs

def greatestLength : Nat := 4300

def isTooLong (base : Nat) (r : Run) : Bool := base == 10 && greatestLength < r.length

/-- The number that a text gives in a base. -/
def read (base : Nat) (s : String) : Except NumeralFault Int :=
  let (isNegative, cs) :=
    match dropEnds isMargin s.toList with
    | '-' :: cs => (true, cs)
    | '+' :: cs => (false, cs)
    | cs => (false, cs)
  match run? base (withoutPrefix base cs) with
  | none => .error .malformed
  | some r =>
      if isTooLong base r then .error (.tooLong r.length)
      else if r.rest.isEmpty then .ok (if isNegative then -(r.value : Int) else r.value)
      else .error .malformed

end Numeral

/-- The first number that is too long to be written. -/
def writingLimit : Nat := Nat.pow 10 Numeral.greatestLength

/-- Whether a number is short enough to be written. -/
def isWritable (n : Int) : Bool := decide (n.natAbs < writingLimit)

/-- What is said of a number that is too long to be written. -/
def longNumberMessage : String :=
  s!"Exceeds the limit ({Numeral.greatestLength} digits) for integer string conversion; " ++
    "use sys.set_int_max_str_digits() to increase the limit"

def integer? (s : String) : Option Int := (Numeral.read 10 s).toOption

/-- The fault of a text in a base. A long text is shown only in part. -/
def NumeralFault.message (base : Nat) (s : String) : NumeralFault → String
  | malformed =>
      s!"invalid literal for int() with base {base}: " ++
        String.ofList ((quoted s).toList.take 200)
  | tooLong digits =>
      s!"Exceeds the limit ({Numeral.greatestLength} digits) for integer string conversion: " ++
        s!"value has {digits} digits; use sys.set_int_max_str_digits() to increase the limit"

end StabsImport.Text

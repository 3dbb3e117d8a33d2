import StabsImport.Text.Numeral

/-!
# What can go wrong with a YAML text

Most texts that go wrong are simply malformed. The others hold an escape for a character that there
is not, a scalar whose tag promises a value that its text does not give, or too much inside one
another.
-/

namespace StabsImport.Yaml

inductive TimePart where
  | year (n : Nat)
  | month
  | day
  | hour
  | minute
  | second
  deriving DecidableEq, Repr

def TimePart.message : TimePart → String
  | year n => s!"year {n} is out of range"
  | month => "month must be in 1..12"
  | day => "day is out of range for month"
  | hour => "hour must be in 0..23"
  | minute => "minute must be in 0..59"
  | second => "second must be in 0..59"

inductive Fault where
  | malformed
  | notInteger (base : Nat) (text : String) (cause : Text.NumeralFault)
  | notReal (text : String)
  /-- A place of a number in base 60 is worth more than any number. -/
  | hugePlace
  /-- A number without any text. -/
  | noNumber
  | notTruth (text : String)
  | notTime
  /-- The text of a time stands in a mapping. -/
  | hiddenTime
  | outOfRange (part : TimePart)
  /-- An offset of a day or more, as it is shown. -/
  | wideOffset (offset : String)
  /-- An escape for a character that there is not. -/
  | noCharacter (code : Nat)
  | tooDeep
  deriving DecidableEq, Repr, Inhabited

namespace Fault

/-- Codes from here on are not even looked at as such. -/
def codeLimit : Nat := 0x80000000

def title : Fault → String
  | malformed => "ConfigurationError"
  | notInteger .. | notReal _ | outOfRange _ | wideOffset _ => "ValueError"
  | hugePlace => "OverflowError"
  | noCharacter code => if code < codeLimit then "ValueError" else "OverflowError"
  | noNumber => "IndexError"
  | notTruth _ => "KeyError"
  | notTime => "AttributeError"
  | hiddenTime => "TypeError"
  | tooDeep => "RecursionError"

def message : Fault → String
  | malformed | notTime | hiddenTime | hugePlace | tooDeep => ""
  | notInteger base text cause => cause.message base text
  | notReal text => "could not convert string to float: " ++ Text.quoted text
  | noNumber => "string index out of range"
  | notTruth text => Text.quoted text
  | outOfRange part => part.message
  | wideOffset offset =>
      "offset must be a timedelta strictly between -timedelta(hours=24) and " ++
        "timedelta(hours=24), not " ++ offset ++ "."
  | noCharacter _ => "chr() arg not in range(0x110000)"

end Fault

/-- What ends the reading of a text: a fault, and how far the text had been looked at by then. -/
structure Halt where
  fault : Fault
  reach : Nat := 0
  deriving DecidableEq, Repr

/-- A text is malformed however far it is looked at. -/
def Halt.malformed : Halt := { fault := .malformed }

end StabsImport.Yaml

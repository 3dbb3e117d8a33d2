import StabsImport.Json.Basic
import StabsImport.Room
import StabsImport.Text.Numeral
import StabsImport.Text.Surrogate

/-!
# Reading JSON text

A reader over the characters left and the number of those behind it. Beside the standard grammar
it takes `NaN` and the two infinities; a fault carries the place where the text went wrong. Whole
numbers have a greatest length, and values a greatest depth.
-/

namespace StabsImport.Json

inductive Defect where
  | byteOrderMark
  | noValue
  | noName
  | noColon
  | noComma
  | extraData
  | unterminated
  | controlCharacter
  | badEscape
  | badUnicodeEscape
  | longNumber (digits : Nat)
  | tooDeep
  deriving DecidableEq, Repr

structure Fault where
  defect : Defect
  place : Nat
  deriving DecidableEq, Repr

structure Cursor where
  rest : List Char
  pos : Nat

abbrev Step (α : Type) := Except Fault (α × Cursor)

def isSpace (c : Char) : Bool := c == ' ' || c == '\t' || c == '\n' || c == '\r'

def Cursor.skip (c : Cursor) (n : Nat) : Cursor := ⟨c.rest.drop n, c.pos + n⟩

def Cursor.skipSpace (c : Cursor) : Cursor := c.skip (c.rest.takeWhile isSpace).length

def fault {α : Type} (defect : Defect) (c : Cursor) : Step α := .error ⟨defect, c.pos⟩

def digitValue (c : Char) : Nat := c.toNat - '0'.toNat

def ofDigits (ds : List Char) : Nat := ds.foldl (fun n c => 10 * n + digitValue c) 0

/-- An exponent mark, a sign and at least one digit. -/
def exponent? (cs : List Char) : Option (Int × Nat) :=
  match cs with
  | mark :: rest =>
      if mark == 'e' || mark == 'E' then
        let (negative, signed, digits) :=
          match rest with
          | '-' :: ds => (true, 1, ds.takeWhile Char.isDigit)
          | '+' :: ds => (false, 1, ds.takeWhile Char.isDigit)
          | ds => (false, 0, ds.takeWhile Char.isDigit)
        if digits.isEmpty then none
        else
          let e : Int := ofDigits digits
          some (if negative then -e else e, 1 + signed + digits.length)
      else none
  | [] => none

/-- A point and at least one digit. -/
def fraction? : List Char → Option (List Char)
  | '.' :: rest =>
      let digits := rest.takeWhile Char.isDigit
      if digits.isEmpty then none else some digits
  | _ => none

def number (c : Cursor) : Step Json :=
  let negative := c.rest.head? == some '-'
  let sign := if negative then 1 else 0
  let c₁ := c.skip sign
  let whole :=
    match c₁.rest with
    | '0' :: _ => ['0']
    | cs => cs.takeWhile Char.isDigit
  if whole.isEmpty then fault .noValue c
  else
    let c₂ := c₁.skip whole.length
    let fraction := fraction? c₂.rest
    let c₃ := c₂.skip (fraction.elim 0 fun ds => ds.length + 1)
    let exponent := exponent? c₃.rest
    let c₄ := c₃.skip (exponent.elim 0 (·.2))
    if fraction.isNone && exponent.isNone then
      if Text.Numeral.greatestLength < whole.length then fault (.longNumber whole.length) c
      else
        let n : Int := ofDigits whole
        .ok (.int (if negative then -n else n), c₄)
    else
      let digits := ofDigits (whole ++ fraction.getD [])
      let e := exponent.elim 0 (·.1) - ((fraction.getD []).length : Int)
      .ok (.real (.ofDecimal negative digits e), c₄)

def hex4? : List Char → Option Nat
  | a :: b :: c :: d :: _ => do
      let a ← Text.hexDigit? a
      let b ← Text.hexDigit? b
      let c ← Text.hexDigit? c
      let d ← Text.hexDigit? d
      some (((a * 16 + b) * 16 + c) * 16 + d)
  | _ => none

def codeOfPair (high low : Nat) : Nat := 0x10000 + (high - 0xD800) * 0x400 + (low - 0xDC00)

/-- The code after `\u`, at the first of its digits. A second escape is looked at only when
a character follows it. -/
def unicodeEscape (c : Cursor) : Step Nat :=
  let bad {α : Type} : Step α := .error ⟨.badUnicodeEscape, c.pos - 1⟩
  if c.rest.length ≤ 4 then bad
  else
    match hex4? c.rest with
    | none => bad
    | some unit =>
        let after := c.skip 4
        match after.rest with
        | '\\' :: 'u' :: low =>
            if Text.isHigh unit && 4 < low.length then
              match hex4? low with
              | none => .error ⟨.badUnicodeEscape, after.pos + 1⟩
              | some n =>
                  if Text.isLow n then .ok (codeOfPair unit n, after.skip 6)
                  else .ok (unit, after)
            else .ok (unit, after)
        | _ => .ok (unit, after)

def escaped? : Char → Option Char
  | '"' => some '"'
  | '\\' => some '\\'
  | '/' => some '/'
  | 'b' => some (Char.ofNat 8)
  | 'f' => some (Char.ofNat 12)
  | 'n' => some '\n'
  | 'r' => some '\r'
  | 't' => some '\t'
  | _ => none

/-- The characters up to the closing quote; `start` is where the opening one stands. -/
def stringBody (start : Nat) : Nat → Cursor → List Char → Step String
  | 0, _, _ => .error ⟨.unterminated, start⟩
  | fuel + 1, c, acc =>
      match c.rest with
      | [] => .error ⟨.unterminated, start⟩
      | '"' :: _ => .ok (String.ofList acc.reverse, c.skip 1)
      | '\\' :: [] => .error ⟨.unterminated, start⟩
      | '\\' :: 'u' :: _ =>
          match unicodeEscape (c.skip 2) with
          | .ok (code, next) =>
              stringBody start fuel next ((Text.charsOfCode code).reverseAux acc)
          | .error e => .error e
      | '\\' :: mark :: _ =>
          match escaped? mark with
          | some ch => stringBody start fuel (c.skip 2) (ch :: acc)
          | none => fault .badEscape c
      | ch :: _ =>
          if ch.toNat ≤ 0x1F then fault .controlCharacter c
          else stringBody start fuel (c.skip 1) ((Text.charsOfChar ch).reverseAux acc)

/-- A string, its opening quote next. -/
def string (fuel : Nat) (c : Cursor) : Step String := stringBody c.pos fuel (c.skip 1) []

def words : List (List Char × Json) :=
  [("null".toList, .null), ("true".toList, .bool true), ("false".toList, .bool false),
   ("NaN".toList, .real .nan), ("Infinity".toList, .real (.infinite false)),
   ("-Infinity".toList, .real (.infinite true))]

def word? (c : Cursor) : Option (Json × Cursor) :=
  (words.find? fun w => w.1.isPrefixOf c.rest).map fun w => (w.2, c.skip w.1.length)

mutual

/-- A value of at most so many levels. -/
def value : Nat → Nat → Cursor → Step Json
  | 0, _, c => fault .noValue c
  | fuel + 1, levels, c =>
      match c.rest with
      | '"' :: _ => (string fuel c).map fun (s, next) => (.text s, next)
      | '{' :: _ =>
          match levels with
          | 0 => fault .tooDeep c
          | levels + 1 =>
              let c := (c.skip 1).skipSpace
              if c.rest.head? == some '}' then .ok (.object [], c.skip 1)
              else members fuel levels c []
      | '[' :: _ =>
          match levels with
          | 0 => fault .tooDeep c
          | levels + 1 =>
              let c := (c.skip 1).skipSpace
              if c.rest.head? == some ']' then .ok (.list [], c.skip 1)
              else elements fuel levels c []
      | _ =>
          match word? c with
          | some found => .ok found
          | none => number c

/-- The members of an object from a name on, those before it given. -/
def members : Nat → Nat → Cursor → List (String × Json) → Step Json
  | 0, _, c, _ => fault .noName c
  | fuel + 1, levels, c, fields =>
      if c.rest.head? != some '"' then fault .noName c
      else
        match string fuel c with
        | .error e => .error e
        | .ok (name, c) =>
            let c := c.skipSpace
            if c.rest.head? != some ':' then fault .noColon c
            else
              match value fuel levels (c.skip 1).skipSpace with
              | .error e => .error e
              | .ok (v, c) =>
                  let fields := setField name v fields
                  let c := c.skipSpace
                  if c.rest.head? == some '}' then .ok (.object fields, c.skip 1)
                  else if c.rest.head? != some ',' then fault .noComma c
                  else members fuel levels (c.skip 1).skipSpace fields

/-- The elements of a list from a value on, those before it given in reverse. -/
def elements : Nat → Nat → Cursor → List Json → Step Json
  | 0, _, c, _ => fault .noValue c
  | fuel + 1, levels, c, items =>
      match value fuel levels c with
      | .error e => .error e
      | .ok (v, c) =>
          let items := v :: items
          let c := c.skipSpace
          if c.rest.head? == some ']' then .ok (.list items.reverse, c.skip 1)
          else if c.rest.head? != some ',' then fault .noComma c
          else elements fuel levels (c.skip 1).skipSpace items

end

/-- One value with nothing but space around it, its lists and objects inside one another as far as
there is room. Two calls at most are made for one character. -/
def read (room : Room) (cs : List Char) : Except Fault Json :=
  if cs.head? == some (Char.ofNat 0xFEFF) then .error ⟨.byteOrderMark, 0⟩
  else
    match value (2 * cs.length + 2) (room.within cs.length) (Cursor.skipSpace ⟨cs, 0⟩) with
    | .error e => .error e
    | .ok (v, c) =>
        let c := c.skipSpace
        if c.rest.isEmpty then .ok v else .error ⟨.extraData, c.pos⟩

def Defect.message : Defect → String
  | byteOrderMark => "Unexpected UTF-8 BOM (decode using utf-8-sig)"
  | noValue => "Expecting value"
  | noName => "Expecting property name enclosed in double quotes"
  | noColon => "Expecting ':' delimiter"
  | noComma => "Expecting ',' delimiter"
  | extraData => "Extra data"
  | unterminated => "Unterminated string starting at"
  | controlCharacter => "Invalid control character at"
  | badEscape => "Invalid \\escape"
  | badUnicodeEscape => "Invalid \\uXXXX escape"
  | longNumber digits => (Text.NumeralFault.tooLong digits).message 10 ""
  | tooDeep => ""

/-- Whether the text breaks the grammar, as opposed to a limit. -/
def Defect.isGrammar : Defect → Bool
  | longNumber _ | tooDeep => false
  | _ => true

/-- A place in a text by line, column and character. -/
def placeText (cs : List Char) (place : Nat) : String :=
  let before := cs.take place
  let line := before.count '\n' + 1
  let column := (before.reverse.takeWhile (· != '\n')).length + 1
  s!"line {line} column {column} (char {place})"

/-- The defect of a text; one of the grammar has a place. -/
def Fault.message (cs : List Char) (e : Fault) : String :=
  if e.defect.isGrammar then s!"{e.defect.message}: {placeText cs e.place}"
  else e.defect.message

end StabsImport.Json

import StabsImport.Json.Basic
import StabsImport.Real.Shortest
import StabsImport.Text.Numeral

/-!
# Writing JSON

Two layouts of JSON text, on one line and indented, and the display form in which a value stands
in a message. JSON text is ASCII: all other characters are written by their UTF-16 units. Writing
stops before a number that is too long.
-/

namespace StabsImport.Json

def unitEscape (n : Nat) : List Char := '\\' :: 'u' :: (Text.padLeft 4 (Text.hexDigits n)).toList

def escapeCode (n : Nat) : List Char :=
  let c := Char.ofNat n
  if c == '"' then ['\\', '"']
  else if c == '\\' then ['\\', '\\']
  else if c == '\n' then ['\\', 'n']
  else if c == '\r' then ['\\', 'r']
  else if c == '\t' then ['\\', 't']
  else if n == 8 then ['\\', 'b']
  else if n == 12 then ['\\', 'f']
  else if 0x20 ≤ n && n < 0x7F then [c]
  else if n < 0x10000 then unitEscape n
  else
    let n := n - 0x10000
    unitEscape (0xD800 + n / 0x400) ++ unitEscape (0xDC00 + n % 0x400)

def stringText (s : String) : String :=
  "\"" ++ String.ofList ((Text.codes s).flatMap escapeCode) ++ "\""

def realText : Binary64 → String
  | .nan => "NaN"
  | .infinite negative => if negative then "-Infinity" else "Infinity"
  | x => x.text

mutual

/-- All on one line, a space after each comma and colon. -/
def compact : Json → String
  | null => "null"
  | bool b => if b then "true" else "false"
  | int n => toString n
  | real x => realText x
  | text s => stringText s
  | list items => "[" ++ ", ".intercalate (compactItems items) ++ "]"
  | object fields => "\x7b" ++ ", ".intercalate (compactFields fields) ++ "\x7d"

def compactItems : List Json → List String
  | [] => []
  | x :: xs => x.compact :: compactItems xs

def compactFields : List (String × Json) → List String
  | [] => []
  | (k, x) :: xs => (stringText k ++ ": " ++ x.compact) :: compactFields xs

end

def newline (level : Nat) : String := "\n" ++ String.ofList (List.replicate (2 * level) ' ')

/-- Parts on lines of their own, one level further in; nothing between the brackets if none. -/
def block (level : Nat) (opening closing : String) (parts : List String) : String :=
  if parts.isEmpty then opening ++ closing
  else
    opening ++ newline (level + 1) ++ ("," ++ newline (level + 1)).intercalate parts ++
      newline level ++ closing

mutual

/-- Each element on a line of its own, two spaces further in for each level. -/
def indented (level : Nat) : Json → String
  | list items => block level "[" "]" (indentedItems (level + 1) items)
  | object fields => block level "\x7b" "\x7d" (indentedFields (level + 1) fields)
  | null => "null"
  | bool b => if b then "true" else "false"
  | int n => toString n
  | real x => realText x
  | text s => stringText s

def indentedItems (level : Nat) : List Json → List String
  | [] => []
  | x :: xs => x.indented level :: indentedItems level xs

def indentedFields (level : Nat) : List (String × Json) → List String
  | [] => []
  | (k, x) :: xs => (stringText k ++ ": " ++ x.indented level) :: indentedFields level xs

end

mutual

/-- Whether all numbers in a value are short enough to be written. -/
def isWritable : Json → Bool
  | int n => Text.isWritable n
  | list items => areWritable items
  | object fields => areWritableFields fields
  | _ => true

def areWritable : List Json → Bool
  | [] => true
  | x :: xs => x.isWritable && areWritable xs

def areWritableFields : List (String × Json) → Bool
  | [] => true
  | (_, x) :: xs => x.isWritable && areWritableFields xs

end

mutual

/-- What is written of a value, indented, before a number in it that is too long. -/
def indentedStart (level : Nat) : Json → String
  | list items => itemsStart (level + 1) ("[" ++ newline (level + 1)) items
  | object fields => "\x7b" ++ newline (level + 1) ++ fieldsStart (level + 1) fields
  | _ => ""

/-- The same of the items of a list, with what leads to the first of them. It is not written by
itself, without an item. -/
def itemsStart (level : Nat) (lead : String) : List Json → String
  | [] => ""
  | int n :: xs =>
      if Text.isWritable n then lead ++ toString n ++ itemsStart level ("," ++ newline level) xs
      else ""
  | x :: xs =>
      if x.isWritable then lead ++ x.indented level ++ itemsStart level ("," ++ newline level) xs
      else lead ++ x.indentedStart level

def fieldsStart (level : Nat) : List (String × Json) → String
  | [] => ""
  | (k, x) :: xs =>
      stringText k ++ ": " ++
        if x.isWritable then x.indented level ++ "," ++ newline level ++ fieldsStart level xs
        else x.indentedStart level

end

mutual

/-- The form of a value inside a message. -/
def shown : Json → String
  | null => "None"
  | bool b => if b then "True" else "False"
  | int n => toString n
  | real x => x.text
  | text s => Text.quoted s
  | list items => "[" ++ ", ".intercalate (shownItems items) ++ "]"
  | object fields => "\x7b" ++ ", ".intercalate (shownFields fields) ++ "\x7d"

def shownItems : List Json → List String
  | [] => []
  | x :: xs => x.shown :: shownItems xs

def shownFields : List (String × Json) → List String
  | [] => []
  | (k, x) :: xs => (Text.quoted k ++ ": " ++ x.shown) :: shownFields xs

end

/-- A text stands for itself, every other value for its form in a message. -/
def plain : Json → String
  | text s => s
  | v => v.shown

end StabsImport.Json

import StabsImport.Yaml.Time

/-!
# The kinds of YAML nodes

A tag names the kind of a node. A plain scalar without a tag is of the first kind whose form it
has, with or without a line feed after it, and a text if it has none of them.
-/

namespace StabsImport.Yaml

inductive Kind where
  | null
  | bool
  | int
  | real
  | text
  | bytes
  | time
  | sequence
  | mapping
  | set
  | orderedMap
  | pairs
  | merge
  | value
  | unknown (tag : String)
  deriving DecidableEq, Repr, Inhabited

namespace Kind

/-- The kinds whose values are read from a text. -/
def isScalar : Kind → Bool
  | null | bool | int | real | text | bytes | time => true
  | _ => false

def standard : List (String × Kind) :=
  [("null", null), ("bool", bool), ("int", int), ("float", real), ("str", text),
   ("binary", bytes), ("timestamp", time), ("seq", sequence), ("map", mapping), ("set", set),
   ("omap", orderedMap), ("pairs", pairs), ("merge", merge), ("value", value)]

def standardPrefix : String := "tag:yaml.org,2002:"

def ofTag (tag : String) : Kind :=
  match standard.find? fun e => standardPrefix ++ e.1 == tag with
  | some e => e.2
  | none => unknown tag

/-! ## The forms of plain scalars -/

/-- A word in lower case, capitalised, or in upper case. -/
def isSpelling (words : List String) (s : String) : Bool :=
  words.any fun w => s == w || s == w.capitalize || s == w.toUpper

def truthWords : List (String × Bool) :=
  [("yes", true), ("no", false), ("true", true), ("false", false), ("on", true), ("off", false)]

def isNullText (s : String) : Bool := s == "" || s == "~" || isSpelling ["null"] s

def isBoolText (s : String) : Bool := isSpelling (truthWords.map (·.1)) s

def unsigned : List Char → List Char
  | '-' :: cs | '+' :: cs => cs
  | cs => cs

def isDigitOrScore (c : Char) : Bool := c.isDigit || c == '_'

/-- One digit, or two below sixty. -/
def isSixtieth : List Char → Bool
  | [a] => a.isDigit
  | [a, b] => '0' ≤ a && a ≤ '5' && b.isDigit
  | _ => false

/-- The parts of a text between colons. -/
def splitColons (cs : List Char) : List (List Char) := cs.splitOn ':'

/-- A digit and more digits, in groups. -/
def isDigits : List Char → Bool
  | c :: rest => c.isDigit && rest.all isDigitOrScore
  | [] => false

def isDecimal : List Char → Bool
  | '0' :: _ => false
  | cs => isDigits cs

def isSexagesimal (cs : List Char) : Bool :=
  match splitColons cs with
  | first :: second :: rest => isDecimal first && (second :: rest).all isSixtieth
  | _ => false

def isIntText (s : String) : Bool :=
  match unsigned s.toList with
  | '0' :: 'b' :: ds => !ds.isEmpty && ds.all fun c => c == '0' || c == '1' || c == '_'
  | '0' :: 'x' :: ds => !ds.isEmpty && ds.all fun c => (Text.hexDigit? c).isSome || c == '_'
  | '0' :: ds => ds.all fun c => ('0' ≤ c && c ≤ '7') || c == '_'
  | cs => isDecimal cs || isSexagesimal cs

/-- Nothing, or a mark of exponent, a sign, and digits. -/
def isExponent : List Char → Bool
  | [] => true
  | mark :: sign :: ds =>
      (mark == 'e' || mark == 'E') && (sign == '-' || sign == '+') && !ds.isEmpty &&
        ds.all Char.isDigit
  | _ => false

/-- The digits after a point, and an exponent. -/
def isFraction (cs : List Char) : Bool := isExponent (cs.dropWhile isDigitOrScore)

def isRealText (s : String) : Bool :=
  let cs := s.toList
  match cs with
  | '.' :: c :: rest => (c.isDigit && isFraction rest) || isSpecial cs || isSpelledNan s
  | _ =>
      let cs := unsigned cs
      let whole := cs.takeWhile (· != '.')
      match cs.drop whole.length with
      | _ :: fraction =>
          (isDigits whole && isFraction fraction) || isSpecial cs ||
            (isSixties whole && fraction.all isDigitOrScore)
      | [] => false
where
  isSpecial (cs : List Char) : Bool := [".inf", ".Inf", ".INF"].contains (String.ofList cs)
  isSpelledNan (s : String) : Bool := [".nan", ".NaN", ".NAN"].contains s
  isSixties (cs : List Char) : Bool :=
    match splitColons cs with
    | first :: second :: rest => isDigits first && (second :: rest).all isSixtieth
    | _ => false

/-- A mark by itself, which is of a kind that has no values. -/
def isMarkText (s : String) : Bool := ["!", "&", "*"].contains s

def ofForm (s : String) : Kind :=
  if isBoolText s then bool
  else if isRealText s then real
  else if isIntText s then int
  else if s == "<<" then merge
  else if isNullText s then null
  else if Time.isPlain s then time
  else if s == "=" then value
  else if isMarkText s then unknown (standardPrefix ++ "yaml")
  else text

/-- The kind of a plain scalar. A line feed by itself is a text. -/
def ofPlain (s : String) : Kind :=
  if s == "\n" then text else ofForm (String.ofList (Text.withoutLineFeed s.toList))

end Kind

end StabsImport.Yaml

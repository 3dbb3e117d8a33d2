/-!
# A place in a YAML text

The text from a place on, and where that place is: its index, line and column. The end of the text
counts as a break wherever a word may end.
-/

namespace StabsImport.Yaml

/-- The characters that end a line. -/
def isBreak (c : Char) : Bool := c == '\n' || c == '\r' || [0x85, 0x2028, 0x2029].contains c.toNat

/-- What the end of a line becomes in a scalar. -/
def breakText (c : Char) : List Char := if c.toNat < 0x2028 then ['\n'] else [c]

def isGap (c : Char) : Bool := c == ' ' || c == '\t'

/-- Whether a word may end before these characters. -/
def endsWord : List Char → Bool
  | [] => true
  | c :: _ => isGap c || isBreak c

/-- Whether a word that no tab may follow ends before these characters. -/
def endsStrictly : List Char → Bool
  | [] => true
  | c :: _ => c == ' ' || isBreak c

/-- Whether a line may end before these characters. -/
def endsLine : List Char → Bool
  | [] => true
  | c :: _ => isBreak c

def byteOrderMark : Char := Char.ofNat 0xFEFF

structure Cursor where
  rest : List Char
  index : Nat := 0
  line : Nat := 0
  column : Nat := 0
  deriving Inhabited

namespace Cursor

/-- A byte order mark takes no column. -/
def next (c : Cursor) : Cursor :=
  match c.rest with
  | [] => c
  | ch :: rest =>
      if isBreak ch then ⟨rest, c.index + 1, c.line + 1, 0⟩
      else if ch == byteOrderMark then ⟨rest, c.index + 1, c.line, c.column⟩
      else ⟨rest, c.index + 1, c.line, c.column + 1⟩

def advance (c : Cursor) : Nat → Cursor
  | 0 => c
  | n + 1 => c.next.advance n

/-- The longest run of characters with a property, and the place after it. -/
def span (c : Cursor) (p : Char → Bool) : List Char × Cursor :=
  let run := c.rest.takeWhile p
  (run, c.advance run.length)

def skip (c : Cursor) (p : Char → Bool) : Cursor := (c.span p).2

def skipSpaces (c : Cursor) : Cursor := c.skip (· == ' ')

def isAt (c : Cursor) (ch : Char) : Bool := c.rest.head? == some ch

def isAtBreak (c : Cursor) : Bool :=
  match c.rest with
  | ch :: _ => isBreak ch
  | [] => false

/-- What stands for the line break here, none if there is none, and the place after it. -/
def lineBreak (c : Cursor) : List Char × Cursor :=
  match c.rest with
  | ch :: _ => if isBreak ch then (breakText ch, c.next) else ([], c)
  | [] => ([], c)

/-- A comment up to the end of its line. -/
def skipComment (c : Cursor) : Cursor := if c.isAt '#' then c.skip (!isBreak ·) else c

def startsWith (c : Cursor) (s : String) : Bool := s.toList.isPrefixOf c.rest

/-- Whether three such characters stand here as a word. -/
def isMark (c : Cursor) (mark : String) : Bool :=
  c.startsWith mark && endsWord (c.rest.drop mark.length)

/-- Whether a document starts or ends here, if this is the first column. -/
def isDocumentMark (c : Cursor) : Bool := c.isMark "---" || c.isMark "..."

end Cursor

end StabsImport.Yaml

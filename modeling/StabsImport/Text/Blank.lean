/-!
# White space

The characters that count as white space, and what is done with them: trimming, telling a text
with ink from a blank one, and parting a text into lines.
-/

namespace StabsImport.Text

/-- The white space of the Unicode standard together with the four information separators. -/
def isBlank (c : Char) : Bool :=
  let n := c.toNat
  (0x09 ≤ n && n ≤ 0x0D) || (0x1C ≤ n && n ≤ 0x20) || n == 0x85 || n == 0xA0 || n == 0x1680 ||
    (0x2000 ≤ n && n ≤ 0x200A) || n == 0x2028 || n == 0x2029 || n == 0x202F || n == 0x205F ||
    n == 0x3000

def dropEnds (p : Char → Bool) (cs : List Char) : List Char :=
  ((cs.dropWhile p).reverse.dropWhile p).reverse

/-- A text without the white space at its two ends. -/
def trim (s : String) : String := String.ofList (dropEnds isBlank s.toList)

/-- A text without the one line feed that may end it. -/
def withoutLineFeed (cs : List Char) : List Char :=
  if cs.getLast? == some '\n' then cs.dropLast else cs

/-- Whether nothing but white space stands in a text. -/
def isBlankText (s : String) : Bool := s.toList.all isBlank

def hasBlank (s : String) : Bool := s.toList.any isBlank

/-- A line ends at any of these, and at a carriage return with the line feed after it. -/
def isLineEnd (c : Char) : Bool :=
  let n := c.toNat
  (0x0A ≤ n && n ≤ 0x0D) || (0x1C ≤ n && n ≤ 0x1E) || n == 0x85 || n == 0x2028 || n == 0x2029

def linesAux : List Char → List Char → List String
  | [], [] => []
  | [], line => [String.ofList line.reverse]
  | '\r' :: '\n' :: rest, line => String.ofList line.reverse :: linesAux rest []
  | c :: rest, line =>
      if isLineEnd c then String.ofList line.reverse :: linesAux rest []
      else linesAux rest (c :: line)

/-- The lines of a text, without their ends; a text that ends in a line end has no empty last
line. -/
def lines (s : String) : List String := linesAux s.toList []

end StabsImport.Text

import StabsImport.Text.Integer
import StabsImport.Text.Surrogate
import StabsImport.Yaml.Cursor
import StabsImport.Yaml.Fault

/-!
# Reading scalars

The three styles in which the text of a scalar stands: plain, between quotes, and as a block. In
the first two a single line break becomes a space and each further one a line feed; a block keeps
its lines, or folds them where neither neighbour is indented further.
-/

namespace StabsImport.Yaml

abbrev Scan (α : Type) := Except Halt α

/-- A break and the breaks after it, as they stand in a folded text. -/
def foldBreaks (first : List Char) (others : List Char) : List Char :=
  if first ≠ ['\n'] then first ++ others else if others.isEmpty then [' '] else others

/-! ## Plain -/

def isFlowMark (c : Char) : Bool := ",[]\x7b\x7d".toList.contains c

/-- Whether a run of plain text ends before these characters. -/
def endsPlain (inFlow : Bool) : List Char → Bool
  | [] => true
  | c :: rest =>
      isGap c || isBreak c || (inFlow && (c == '?' || isFlowMark c)) ||
        (c == ':' && (endsWord rest || (inFlow && rest.head?.any isFlowMark)))

def plainLength (inFlow : Bool) : List Char → Nat
  | [] => 0
  | c :: rest => if endsPlain inFlow (c :: rest) then 0 else plainLength inFlow rest + 1

/-- The breaks of empty lines, spaces passed over; nothing if a document starts or ends there. -/
def plainBreaks : Nat → List Char → Cursor → Option (List Char) × Cursor
  | 0, breaks, c => (some breaks, c)
  | fuel + 1, breaks, c =>
      if c.isAt ' ' then plainBreaks fuel breaks c.next
      else if c.isAtBreak then
        let (text, c) := c.lineBreak
        if c.isDocumentMark then (none, c) else plainBreaks fuel (breaks ++ text) c
      else (some breaks, c)

structure Gap where
  /-- What the gap stands for if more plain text follows; nothing if none can. -/
  text : List Char
  hasBreak : Bool
  after : Cursor

/-- The gap after a run of plain text. -/
def plainGap (c : Cursor) : Gap :=
  let (spaces, c) := c.span (· == ' ')
  if c.isAtBreak then
    let (first, c) := c.lineBreak
    if c.isDocumentMark then ⟨[], true, c⟩
    else
      match plainBreaks (c.rest.length + 1) [] c with
      | (some others, c) => ⟨foldBreaks first others, true, c⟩
      | (none, c) => ⟨[], true, c⟩
  else ⟨spaces, false, c⟩

/-- Runs on after some text, which is given in reverse, and the gap after it. -/
def plainFrom (indent : Int) (inFlow : Bool) : Nat → List Char → Gap → List Char × Gap
  | 0, text, gap => (text, gap)
  | fuel + 1, text, gap =>
      let c := gap.after
      let n := if c.isAt '#' then 0 else plainLength inFlow c.rest
      if n = 0 then (text, gap)
      else
        let text := (c.rest.take n).reverseAux (gap.text.reverseAux text)
        let gap := plainGap (c.advance n)
        if gap.text.isEmpty || gap.after.isAt '#' || (!inFlow && gap.after.column < indent)
        then (text, gap)
        else plainFrom indent inFlow fuel text gap

/-- A plain scalar, and whether a line break follows it. Its lines are indented at least so far. -/
def plain (indent : Int) (inFlow : Bool) (c : Cursor) : String × Bool × Cursor :=
  let (text, gap) := plainFrom indent inFlow (c.rest.length + 1) [] ⟨[], false, c⟩
  (Text.ofChars text.reverse, gap.hasBreak, gap.after)

/-! ## Quoted -/

def escapes : List (Char × Char) :=
  [('0', Char.ofNat 0), ('a', Char.ofNat 7), ('b', Char.ofNat 8), ('t', '\t'), ('\t', '\t'),
   ('n', '\n'), ('v', Char.ofNat 0xB), ('f', Char.ofNat 0xC), ('r', '\r'), ('e', Char.ofNat 0x1B),
   (' ', ' '), ('"', '"'), ('\\', '\\'), ('/', '/'), ('N', Char.ofNat 0x85), ('_', Char.ofNat 0xA0),
   ('L', Char.ofNat 0x2028), ('P', Char.ofNat 0x2029)]

/-- How many digits the code after each letter has. -/
def codeLengths : List (Char × Nat) := [('x', 2), ('u', 4), ('U', 8)]

/-- The characters for a code, for which the text has been looked at so far. -/
def codeText (n reach : Nat) : Scan (List Char) :=
  if n ≥ 0x110000 then .error ⟨.noCharacter n, reach⟩ else .ok (Text.charsOfCode n)

/-- The breaks of empty lines between quotes, and the gaps around them. -/
def quotedBreaks : Nat → List Char → Cursor → Scan (List Char × Cursor)
  | 0, breaks, c => .ok (breaks, c)
  | fuel + 1, breaks, c =>
      if c.isDocumentMark then .error .malformed
      else
        let c := c.skip isGap
        if c.isAtBreak then
          let (text, c) := c.lineBreak
          quotedBreaks fuel (breaks ++ text) c
        else .ok (breaks, c)

/-- The gap between two words between quotes. -/
def quotedGap (c : Cursor) : Scan (List Char × Cursor) := do
  let (spaces, c) := c.span isGap
  if c.rest.isEmpty then throw .malformed
  else if c.isAtBreak then
    let (first, c) := c.lineBreak
    let (others, c) ← quotedBreaks (c.rest.length + 1) [] c
    return (foldBreaks first others, c)
  else return (spaces, c)

/-- What a backslash and the characters after it stand for. -/
def escape (c : Cursor) : Scan (List Char × Cursor) := do
  match c.rest with
  | [] => throw .malformed
  | ch :: rest =>
      match escapes.lookup ch, codeLengths.lookup ch with
      | some text, _ => return ([text], c.next)
      | none, some n =>
          let digits := rest.take n
          match Text.ofBase? 16 digits with
          | some code =>
              if digits.length < n then throw .malformed
              else return (← codeText code (c.index + 1 + n), c.advance (n + 1))
          | none => throw .malformed
      | none, none =>
          if isBreak ch then quotedBreaks (c.rest.length + 1) [] c.next else throw .malformed

/-- Text between quotes up to the closing one, that before it given in reverse. -/
def quotedFrom (quote : Char) : Nat → List Char → Cursor → Scan (List Char × Cursor)
  | 0, _, _ => .error .malformed
  | fuel + 1, text, c =>
      match c.rest with
      | [] => .error .malformed
      | ch :: rest =>
          if ch == quote then
            if quote == '\'' && rest.head? == some '\'' then
              quotedFrom quote fuel ('\'' :: text) (c.advance 2)
            else .ok (text.reverse, c.next)
          else if quote == '"' && ch == '\\' then do
            let (more, c) ← escape c.next
            quotedFrom quote fuel (more.reverseAux text) c
          else if isGap ch || isBreak ch then do
            let (more, c) ← quotedGap c
            quotedFrom quote fuel (more.reverseAux text) c
          else quotedFrom quote fuel ((Text.charsOfChar ch).reverseAux text) c.next

/-- A scalar between two of these quotes. -/
def quoted (quote : Char) (c : Cursor) : Scan (String × Cursor) := do
  let (text, c) ← quotedFrom quote (c.rest.length + 1) [] c.next
  return (String.ofList text, c)

/-! ## Blocks -/

inductive Chomp where
  | strip
  | clip
  | keep
  deriving DecidableEq, Repr

/-- What becomes of the last line breaks, and the indentation, if given. -/
structure BlockHeader where
  chomp : Chomp := .clip
  increment : Option Nat := none
  deriving DecidableEq, Repr

def chomp? : Char → Option Chomp
  | '+' => some .keep
  | '-' => some .strip
  | _ => none

/-- An indentation is one digit, not zero. -/
def increment? (c : Char) : Option Nat :=
  if c.isDigit && c != '0' then some (c.toNat - '0'.toNat) else none

/-- The signs after the mark of a block, in either order. -/
def blockSigns : List Char → BlockHeader × Nat
  | a :: b :: _ =>
      match chomp? a, increment? a, chomp? b, increment? b with
      | some chomp, _, _, some n => (⟨chomp, some n⟩, 2)
      | _, some n, some chomp, _ => (⟨chomp, some n⟩, 2)
      | some chomp, _, _, _ => (⟨chomp, none⟩, 1)
      | _, some n, _, _ => (⟨.clip, some n⟩, 1)
      | _, _, _, _ => (⟨.clip, none⟩, 0)
  | [a] =>
      match chomp? a, increment? a with
      | some chomp, _ => (⟨chomp, none⟩, 1)
      | _, some n => (⟨.clip, some n⟩, 1)
      | _, _ => (⟨.clip, none⟩, 0)
  | [] => (⟨.clip, none⟩, 0)

/-- The rest of a line that may hold a comment and nothing else. -/
def endOfLine (c : Cursor) : Scan Cursor :=
  let c := c.skipSpaces.skipComment
  if endsLine c.rest then .ok c.lineBreak.2 else .error .malformed

def blockHeader (c : Cursor) : Scan (BlockHeader × Cursor) := do
  let (header, n) := blockSigns c.rest
  let c := c.advance n
  if !endsStrictly c.rest then throw .malformed
  return (header, ← endOfLine c)

/-- Empty lines before the first line of a block, and the deepest column among them. -/
def blockIndentation : Nat → List Char → Nat → Cursor → List Char × Nat × Cursor
  | 0, breaks, deepest, c => (breaks, deepest, c)
  | fuel + 1, breaks, deepest, c =>
      if c.isAt ' ' then
        let c := c.next
        blockIndentation fuel breaks (max deepest c.column) c
      else if c.isAtBreak then
        let (text, c) := c.lineBreak
        blockIndentation fuel (breaks ++ text) deepest c
      else (breaks, deepest, c)

/-- Spaces up to a column. -/
def skipIndent (indent : Nat) : Nat → Cursor → Cursor
  | 0, c => c
  | fuel + 1, c =>
      if c.column < indent && c.isAt ' ' then skipIndent indent fuel c.next else c

/-- Empty lines inside a block, and the indentation of the line after them. -/
def blockBreaks (indent : Nat) : Nat → List Char → Cursor → List Char × Cursor
  | 0, breaks, c => (breaks, c)
  | fuel + 1, breaks, c =>
      let c := skipIndent indent indent c
      if c.isAtBreak then
        let (text, c) := c.lineBreak
        blockBreaks indent fuel (breaks ++ text) c
      else (breaks, c)

def startsWithGap (c : Cursor) : Bool := c.rest.head?.any isGap

/-- What a break between two lines of a block stands for, the empty lines after it apart. -/
def blockJoint (isFolded : Bool) (first : List Char) (isFlush : Bool) (others : List Char) :
    List Char :=
  if isFolded && first == ['\n'] && isFlush then if others.isEmpty then [' '] else [] else first

/-- The lines of a block from one on: the text, then its last break and the empty lines after it. -/
def blockLines (isFolded : Bool) (indent : Nat) :
    Nat → List Char → List Char → Cursor → List Char × List Char × List Char × Cursor
  | 0, text, breaks, c => (text, [], breaks, c)
  | fuel + 1, text, breaks, c =>
      if c.column ≠ indent || c.rest.isEmpty then (text, [], breaks, c)
      else
        let wasFlush := !startsWithGap c
        let (line, c) := c.span (!isBreak ·)
        let text := text ++ breaks ++ line
        let (first, c) := c.lineBreak
        let (others, c) := blockBreaks indent (c.rest.length + 1) [] c
        if c.column = indent && !c.rest.isEmpty then
          let joint := blockJoint isFolded first (wasFlush && !startsWithGap c) others
          blockLines isFolded indent fuel (text ++ joint) others c
        else (text, first, others, c)

/-- A block scalar inside a block indented so far. -/
def block (isFolded : Bool) (outer : Int) (c : Cursor) : Scan (String × Cursor) := do
  let (header, c) ← blockHeader c.next
  let least := (max (outer + 1) 1).toNat
  let (breaks, indent, c) :=
    match header.increment with
    | none =>
        let (breaks, deepest, c) := blockIndentation (c.rest.length + 1) [] 0 c
        (breaks, max least deepest, c)
    | some n =>
        let indent := least + n - 1
        let (breaks, c) := blockBreaks indent (c.rest.length + 1) [] c
        (breaks, indent, c)
  let (text, last, others, c) := blockLines isFolded indent (c.rest.length + 1) [] breaks c
  let tail :=
    match header.chomp with
    | .strip => []
    | .clip => last
    | .keep => last ++ others
  return (Text.ofChars (text ++ tail), c)

end StabsImport.Yaml

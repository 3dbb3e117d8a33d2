import StabsImport.Ledger
import StabsImport.Room
import StabsImport.Text.Utf8
import StabsImport.Yaml.Scalar
import StabsImport.Yaml.Token

/-!
# The tokens of a YAML text

Indentation is turned into tokens that open and close blocks. Whatever a `:` may follow is noted
as a possible key; when the `:` comes, the token of a key is put before it, and that of a block
mapping if one starts there. A possible key ends with its line, or after 1024 characters. The text
is looked at only as far as it takes to be certain of the next token. A token is noted together with
its place, and there has to be room for that.
-/

namespace StabsImport.Yaml

structure PossibleKey where
  /-- How many tokens come before it. -/
  place : Nat
  isRequired : Bool
  index : Nat
  line : Nat
  column : Nat

structure Lexer where
  cursor : Cursor
  /-- The room for reading on. -/
  room : Room := none
  tokens : Array Token := #[]
  /-- How many of the tokens have been taken. -/
  taken : Nat := 0
  isDone : Bool := false
  /-- The column of the innermost block, and of those around it. -/
  indent : Int := -1
  outer : List Int := []
  /-- How many brackets are open. -/
  flow : Nat := 0
  allowsKey : Bool := true
  /-- By the number of brackets open. -/
  keys : Ledger Nat PossibleKey := {}

abbrev LexM := StateT Lexer (Except Halt)

namespace Lexer

def fail {α : Type} : LexM α := throw .malformed

/-- Fails unless there is room for so many calls. -/
def need (calls : Nat) : LexM Unit := do
  let l ← get
  if !l.room.allows calls then throw ⟨.tooDeep, l.cursor.index + 1⟩

/-- Fails unless there is room to note a place inside so many calls. -/
def needMark (calls : Nat) : LexM Unit := need (calls + 3)

def emit (t : Token) : LexM Unit := modify fun l => { l with tokens := l.tokens.push t }

def allowKey (allowed : Bool) : LexM Unit := modify fun l => { l with allowsKey := allowed }

def moveTo (c : Cursor) : LexM Unit := modify fun l => { l with cursor := c }

def advance (n : Nat) : LexM Unit := modify fun l => { l with cursor := l.cursor.advance n }

/-- Reads with a function on cursors. -/
def reading {α : Type} (f : Cursor → Scan (α × Cursor)) : LexM α := do
  let (x, c) ← liftM (f (← get).cursor)
  moveTo c
  return x

def isFlow : LexM Bool := return (← get).flow ≠ 0

/-! ## Blocks -/

/-- Closes the blocks further in than a column. -/
def closeBlocks (column : Int) : List Int → Lexer → Lexer
  | [], l => l
  | next :: rest, l =>
      if l.indent > column then
        closeBlocks column rest
          { l with tokens := l.tokens.push .blockEnd, indent := next, outer := rest }
      else l

/-- Whether blocks end with the document. -/
def hasBlocks : LexM Bool := do
  let l ← get
  return l.flow = 0 && !l.outer.isEmpty

/-- Brackets suspend indentation. -/
def unwind (column : Int) : LexM Unit :=
  modify fun l => if l.flow ≠ 0 then l else closeBlocks column l.outer l

/-- Opens a block at a column, unless one is open there or further in; whether it did. -/
def indentTo (column : Nat) : LexM Bool := do
  let l ← get
  if l.indent < column then
    set { l with indent := (column : Int), outer := l.indent :: l.outer }
    return true
  else return false

/-- Opens a block here for an item that stands in a block only where a key may. -/
def openBlock (t : Token) : LexM Unit := do
  let l ← get
  if l.flow = 0 then
    if !l.allowsKey then fail
    if ← indentTo l.cursor.column then emit t

/-! ## Possible keys -/

def isStale (l : Lexer) (k : PossibleKey) : Bool :=
  k.line ≠ l.cursor.line || l.cursor.index > k.index + 1024

/-- Drops the keys that can no longer be keys. -/
def dropStale : LexM Unit := do
  let l ← get
  if l.keys.values.any fun k => isStale l k && k.isRequired then fail
  set { l with keys := ⟨l.keys.entries.filter fun e => !isStale l e.2⟩ }

def dropKey : LexM Unit := do
  let l ← get
  if (l.keys.get? l.flow).any (·.isRequired) then fail
  set { l with keys := l.keys.remove l.flow }

/-- Notes the place here as that of a possible key. What starts a line of a block mapping has to be
a key. -/
def noteKey : LexM Unit := do
  let l ← get
  if l.allowsKey then
    dropKey
    let c := l.cursor
    let k : PossibleKey :=
      { place := l.tokens.size, isRequired := l.flow = 0 && l.indent = (c.column : Int)
        index := c.index, line := c.line, column := c.column }
    modify fun l => { l with keys := l.keys.put l.flow k }

def insertToken (tokens : Array Token) (place : Nat) (t : Token) : Array Token :=
  tokens.extract 0 place ++ #[t] ++ tokens.extract place tokens.size

def insert (place : Nat) (t : Token) : LexM Unit :=
  modify fun l => { l with tokens := insertToken l.tokens place t }

/-! ## Between tokens -/

/-- Passes over spaces, comments and line breaks. In a block a key may start a line. -/
def skipLines : Nat → LexM Unit
  | 0 => return
  | fuel + 1 => do
      modify fun l => { l with cursor := l.cursor.skipSpaces.skipComment }
      let l ← get
      if l.cursor.isAtBreak then
        moveTo l.cursor.next
        if l.flow = 0 then allowKey true
        skipLines fuel

def skipToToken : LexM Unit := do
  let c := (← get).cursor
  if c.index = 0 && c.isAt byteOrderMark then moveTo c.next
  skipLines (c.rest.length + 1)

/-! ## Directives, names and tags -/

def isWordChar (c : Char) : Bool := c.isAlphanum || c == '-' || c == '_'

def isTagChar (c : Char) : Bool := c.isAlphanum || "-;/?:@&=+$,_.!~*'()[]%".toList.contains c

/-- The characters that a run of bytes encodes. -/
def encodedText (bytes : Text.Bytes) : Scan (List Char) :=
  match Text.charsOfUtf8? bytes with
  | some cs => .ok cs
  | none => .error .malformed

/-- Bytes given by their codes are put together and decoded; `bytes` are those just before. -/
def decodeTag (bytes : Text.Bytes) : List Char → Scan (List Char)
  | [] => encodedText bytes
  | '%' :: a :: b :: rest =>
      match Text.ofBase? 16 [a, b] with
      | some n => decodeTag (bytes ++ [UInt8.ofNat n]) rest
      | none => .error .malformed
  | '%' :: _ => .error .malformed
  | c :: rest => do
      let text ← encodedText bytes
      return text ++ c :: (← decodeTag [] rest)

def tagText (c : Cursor) : Scan (String × Cursor) := do
  let (run, c) := c.span isTagChar
  if run.isEmpty then throw .malformed
  return (Text.ofChars (← decodeTag [] run), c)

/-- One mark alone, or a word between two. -/
def tagHandle (c : Cursor) : Scan (String × Cursor) := do
  if !c.isAt '!' then throw .malformed
  let c := c.next
  if c.isAt ' ' then return ("!", c)
  let (word, c) := c.span isWordChar
  if !c.isAt '!' then throw .malformed
  return ("!" ++ String.ofList word ++ "!", c.next)

/-- The character after the digits shows that they end. -/
def versionNumber (c : Cursor) : Scan (Nat × Cursor) := do
  let (digits, c) := c.span Char.isDigit
  match Text.ofBase? 10 digits with
  | some n =>
      if Text.Numeral.greatestLength < digits.length then
        throw ⟨.notInteger 10 (String.ofList digits) (.tooLong digits.length), c.index + 1⟩
      return (n, c)
  | none => throw .malformed

def versionDirective (c : Cursor) : Scan (Directive × Cursor) := do
  let (major, c) ← versionNumber c.skipSpaces
  if !c.isAt '.' then throw .malformed
  let (minor, c) ← versionNumber c.next
  if !endsStrictly c.rest then throw .malformed
  return (.version major minor, c)

def handleDirective (c : Cursor) : Scan (Directive × Cursor) := do
  let (name, c) ← tagHandle c.skipSpaces
  if !c.isAt ' ' then throw .malformed
  let (meaning, c) ← tagText c.skipSpaces
  if !endsStrictly c.rest then throw .malformed
  return (.handle name meaning, c)

def directive (c : Cursor) : Scan (Directive × Cursor) := do
  let (name, c) := c.next.span isWordChar
  if name.isEmpty || !endsStrictly c.rest then throw .malformed
  let (d, c) ←
    if name = "YAML".toList then versionDirective c
    else if name = "TAG".toList then handleDirective c
    else pure (.other, c.skip (!isBreak ·))
  return (d, ← endOfLine c)

/-- What may come right after the name of an anchor. -/
def endsName : List Char → Bool
  | [] => true
  | c :: _ => isGap c || isBreak c || "?:,]\x7d%@`".toList.contains c

/-- The name of an anchor, after its mark. -/
def anchorName (c : Cursor) : Scan (String × Cursor) := do
  let (name, c) := c.next.span isWordChar
  if name.isEmpty || !endsName c.rest then throw .malformed
  return (String.ofList name, c)

/-- Whether a second mark comes before the end of the word. -/
def hasHandle (c : Cursor) : Bool :=
  (c.rest.takeWhile fun ch => ch != ' ' && !isBreak ch).contains '!'

def tag (c : Cursor) : Scan (Token × Cursor) := do
  let after := c.next
  let (t, c) ←
    if after.isAt '<' then do
      let (suffix, c) ← tagText after.next
      if !c.isAt '>' then throw .malformed
      pure (Token.tag none suffix, c.next)
    else if endsWord after.rest then pure (Token.tag none "!", after)
    else do
      let (handle, c) ← if hasHandle after then tagHandle c else pure ("!", after)
      let (suffix, c) ← tagText c
      pure (Token.tag (some handle) suffix, c)
  if !endsStrictly c.rest then throw .malformed
  return (t, c)

/-! ## Tokens -/

/-- Between the brackets of two documents. -/
def outside : LexM Unit := do
  unwind (-1)
  dropKey
  allowKey false

def documentMark (t : Token) : LexM Unit := do
  needMark (if ← hasBlocks then 5 else 4)
  outside
  advance 3
  emit t

def openFlow (t : Token) : LexM Unit := do
  needMark (if (← get).allowsKey then 5 else 4)
  noteKey
  modify fun l => { l with flow := l.flow + 1 }
  allowKey true
  advance 1
  emit t

/-- No bracket closes what is not open. -/
def closeFlow (t : Token) : LexM Unit := do
  needMark 4
  dropKey
  let l ← get
  if l.flow = 0 then fail
  set { l with flow := l.flow - 1 }
  allowKey false
  advance 1
  emit t

def flowEntry : LexM Unit := do
  needMark 3
  allowKey true
  dropKey
  advance 1
  emit .flowEntry

def blockEntry : LexM Unit := do
  needMark 3
  openBlock .blockSequenceStart
  allowKey true
  dropKey
  advance 1
  emit .blockEntry

def explicitKey : LexM Unit := do
  needMark 3
  openBlock .blockMappingStart
  allowKey (!(← isFlow))
  dropKey
  advance 1
  emit .key

/-- The value of the key noted last, if there is one here. -/
def value : LexM Unit := do
  needMark 3
  let l ← get
  match l.keys.get? l.flow with
  | some k =>
      set { l with keys := l.keys.remove l.flow }
      insert k.place .key
      if l.flow = 0 then
        if ← indentTo k.column then insert k.place .blockMappingStart
      allowKey false
  | none =>
      openBlock .blockMappingStart
      allowKey (!(← isFlow))
      dropKey
  advance 1
  emit .value

/-- A token that may be a key, read with so many calls. -/
def keyLike (calls : Nat) (read : LexM Token) : LexM Unit := do
  needMark calls
  noteKey
  allowKey false
  emit (← read)

/-- A fault between the quotes is found one call further in than the quotes are. -/
def quotedScalar (quote : Char) : LexM Token := do
  match quoted quote (← get).cursor with
  | .ok (text, c) =>
      moveTo c
      return .scalar text false
  | .error halt =>
      needMark 6
      throw halt

def blockScalar (isFolded : Bool) : LexM Unit := do
  needMark 6
  allowKey true
  dropKey
  let indent := (← get).indent
  let text ← reading (block isFolded indent)
  emit (.scalar text false)

/-- To find that the last line break ends the text takes one more call. -/
def plainScalar : LexM Unit := do
  needMark 4
  noteKey
  let l ← get
  let (text, hasBreak, c) := plain (l.indent + 1) (l.flow ≠ 0) l.cursor
  moveTo c
  if hasBreak && c.column = 0 && c.rest.isEmpty then needMark 5
  allowKey hasBreak
  emit (.scalar text true)

/-- Whether a plain scalar may start with these characters. -/
def startsPlain (inFlow : Bool) : List Char → Bool
  | [] => false
  | c :: rest =>
      !(isGap c || isBreak c || "-?:,[]\x7b\x7d#&*!|>'\"%@`".toList.contains c) ||
        (!endsWord rest && (c == '-' || (!inFlow && (c == '?' || c == ':'))))

def finish : LexM Unit := do
  needMark (if ← hasBlocks then 4 else 3)
  unwind (-1)
  dropKey
  modify fun l => { l with isDone := true }

/-- Reads on by one token, or finds the end of the text. -/
def step : LexM Unit := do
  skipToToken
  dropStale
  unwind (← get).cursor.column
  let l ← get
  let c := l.cursor
  let inFlow := l.flow ≠ 0
  match c.rest with
  | [] => finish
  | ch :: rest =>
      if ch == '%' && c.column = 0 then
        needMark 4
        outside
        emit (.directive (← reading directive))
      else if c.column = 0 && c.isMark "---" then documentMark .documentStart
      else if c.column = 0 && c.isMark "..." then documentMark .documentEnd
      else if ch == '[' then openFlow .flowSequenceStart
      else if ch == '\x7b' then openFlow .flowMappingStart
      else if ch == ']' then closeFlow .flowSequenceEnd
      else if ch == '\x7d' then closeFlow .flowMappingEnd
      else if ch == ',' then flowEntry
      else if ch == '-' && endsWord rest then blockEntry
      else if ch == '?' && (inFlow || endsWord rest) then explicitKey
      else if ch == ':' && (inFlow || endsWord rest) then value
      else if ch == '*' then keyLike 4 (return .alias (← reading anchorName))
      else if ch == '&' then keyLike 4 (return .anchor (← reading anchorName))
      else if ch == '!' then keyLike 4 (reading tag)
      else if ch == '|' && !inFlow then blockScalar false
      else if ch == '>' && !inFlow then blockScalar true
      else if ch == '\'' || ch == '"' then keyLike 5 (quotedScalar ch)
      else if startsPlain inFlow c.rest then plainScalar
      else
        needMark 2
        fail

/-- Whether the next token is still unknown: it is not there, or a key may come before it. -/
def isUncertain : LexM Bool := do
  let l ← get
  if l.isDone then return false
  if l.tokens.size ≤ l.taken then return true
  dropStale
  return (← get).keys.values.any (·.place == l.taken)

/-- Every step but the last takes up at least one character. -/
def settle : Nat → LexM Unit
  | 0 => return
  | fuel + 1 => do
      if ← isUncertain then
        step
        settle fuel

/-- The next token, or none at the end of the text. -/
def peek : LexM (Option Token) := do
  settle ((← get).cursor.rest.length + 2)
  let l ← get
  need (if l.isDone then 2 else 3)
  return l.tokens[l.taken]?

def take : LexM Unit := modify fun l => { l with taken := l.taken + 1 }

end Lexer

def Lexer.ofText (cs : List Char) : Lexer := { cursor := { rest := cs } }

end StabsImport.Yaml

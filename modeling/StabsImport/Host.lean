import StabsImport.Ledger
import StabsImport.Room
import StabsImport.Text.Quoted
import StabsImport.Text.Utf8
import StabsImport.Yaml.Reader

/-!
# The host of an import

What a run sees of the machine it runs on: a directory of files, the environment, where tools are
found, what the one tool it starts does, the reader of YAML that is installed, and what takes the
log. Paths are walked component by component, so that a path through something that is no directory
fails like one to something that is not there. Not every text is a path: one with a null character,
or with a surrogate that no byte is hidden in, does not even get as far as the file system.
-/

namespace StabsImport

open Text (Bytes)

/-- What becomes of the tool when it is started. -/
inductive ToolOutcome where
  | timedOut
  /-- The limit on the tool's time is longer than the host can wait. -/
  | limitTooLong
  | notStarted (reason : String)
  | finished (status : Int) (output errors : Bytes)
  deriving DecidableEq, Repr, Inhabited

/-- One start of the tool: its command, the limit on its time in seconds, what the file named last
in the command held then, and whether that file is a temporary one. -/
structure ToolCall where
  command : List String
  timeout : Option Int
  image : Option Bytes
  isTemporary : Bool := false
  deriving DecidableEq, Repr, Inhabited

inductive PathFault where
  | missing
  | throughFile
  | isDirectory
  | nameTooLong
  | nullCharacter
  /-- Surrogates from one place of the path up to another, and the first of them. -/
  | surrogate (first last code : Nat)
  deriving DecidableEq, Repr

namespace PathFault

def title : PathFault → String
  | missing => "FileNotFoundError"
  | throughFile => "NotADirectoryError"
  | isDirectory => "IsADirectoryError"
  | nameTooLong => "OSError"
  | nullCharacter => "ValueError"
  | surrogate .. => "UnicodeEncodeError"

/-- Whether the fault is one of the file system, as opposed to one of the path as a text. -/
def isReported : PathFault → Bool
  | nullCharacter | surrogate .. => false
  | _ => true

def surrogateText (first last code : Nat) : String :=
  if first = last then
    s!"character '\\u{Text.hexDigits code}' in position {first}"
  else s!"characters in position {first}-{last}"

def reason : PathFault → String
  | missing => "[Errno 2] No such file or directory"
  | throughFile => "[Errno 20] Not a directory"
  | isDirectory => "[Errno 21] Is a directory"
  | nameTooLong => "[Errno 36] File name too long"
  | nullCharacter => "embedded null byte"
  | surrogate first last code =>
      "'utf-8' codec can't encode " ++ surrogateText first last code ++ ": surrogates not allowed"

def message (e : PathFault) (path : String) : String :=
  if e.isReported then e.reason ++ ": " ++ Text.quoted path else e.reason

end PathFault

/-- A place below the working directory. -/
abbrev Location := List String

inductive Entry where
  | file (content : Bytes)
  | directory
  deriving DecidableEq, Repr

/-- What takes the texts that are logged. -/
inductive LogHandler where
  /-- Collects them. What goes wrong in writing one goes on to where it was logged. -/
  | collector
  /-- Writes them to a stream, and passes over one that cannot be written, unless there is too much
  inside one another in it. -/
  | stream
  deriving DecidableEq, Repr, Inhabited

namespace LogHandler

/-- The calls around the writing of a text that is logged. -/
def calls : LogHandler → Nat
  | collector => 7
  | stream => 9

def passesOver (handler : LogHandler) (cause : Yaml.WritingFault) : Bool :=
  handler == .stream && cause == .longNumber

end LogHandler

structure Host where
  files : Ledger Location Bytes := {}
  directories : List Location := []
  /-- The path of the directory that takes temporary files, if there is one. -/
  temporaries : Option String := none
  environment : Ledger String String := {}
  /-- Where a tool named without a directory is found. -/
  tools : Ledger String String := {}
  outcome : ToolOutcome := .finished 0 [] []
  calls : List ToolCall := []
  loadYaml : Yaml.Loader := Yaml.load
  log : LogHandler := .collector
  /-- The room for what runs on the host. -/
  room : Room := none
  deriving Inhabited

namespace Host

/-- The host as it is for what is called from inside so many calls. -/
def inside (h : Host) (calls : Nat) : Host := { h with room := h.room.inside calls }

/-- What lies above the working directory is a chain of directories with nothing else in them. -/
def isAbove (location : Location) : Bool := location.all fun part => part == ".." || part == "/"

def isDirectory (h : Host) (location : Location) : Bool :=
  isAbove location || h.directories.contains location ||
    h.files.keys.any fun file => location.isPrefixOf file && location ≠ file

def entry? (h : Host) (location : Location) : Option Entry :=
  match h.files.get? location with
  | some content => some (.file content)
  | none => if h.isDirectory location then some .directory else none

/-- One level up. -/
def parent (location : Location) : Location :=
  if isAbove location then location ++ [".."] else location.dropLast

/-- The bytes of a name or a path. A surrogate may stand for one byte. -/
def byteLength (s : String) : Nat :=
  (Text.codes s).foldl
    (fun n code => n + if Text.isSurrogate code then 1 else (Char.ofNat code).utf8Size) 0

def greatestName : Nat := 255

def greatestPath : Nat := 4095

def isNameTooLong (part : String) : Bool := greatestName < byteLength part

/-- Goes down a list of components, from a directory. -/
def walk (h : Host) (location : Location) : List String → Except PathFault (Location × Entry)
  | [] => .ok (location, .directory)
  | part :: rest =>
      if part = "" || part = "." then h.walk location rest
      else if part = ".." then h.walk (parent location) rest
      else
        let location := location ++ [part]
        match h.entry? location with
        | none => .error (if isNameTooLong part then .nameTooLong else .missing)
        | some .directory => h.walk location rest
        | some (.file content) =>
            if rest.isEmpty then .ok (location, .file content) else .error .throughFile

/-- The components of a path; those between two slashes, or beside the last one, are empty. -/
def parts (path : String) : List String := (path.toList.splitOn '/').map String.ofList

def start (path : String) : Location := if path.startsWith "/" then ["/"] else []

/-- Where a path leads if there are directories all along it. -/
def locationOf (path : String) : Location :=
  (parts path).foldl
    (fun location part =>
      if part = "" || part = "." then location
      else if part = ".." then parent location
      else location ++ [part])
    (start path)

/-- Whether a code is a surrogate in which no byte is hidden. -/
def isUnpaired (code : Nat) : Bool :=
  Text.isSurrogate code && !(0xDC80 ≤ code && code ≤ 0xDCFF)

/-- What is wrong with a path before anything is looked up. -/
def pathFault? (path : String) : Option PathFault :=
  let codes := Text.codes path
  let before := codes.takeWhile (!isUnpaired ·)
  match codes.drop before.length with
  | code :: rest =>
      let more := rest.takeWhile Text.isSurrogate
      some (.surrogate before.length (before.length + more.length) code)
  | [] =>
      if codes.contains 0 then some .nullCharacter
      else if codes.isEmpty then some .missing
      else if greatestPath < byteLength path then some .nameTooLong
      else none

def locate (h : Host) (path : String) : Except PathFault (Location × Entry) :=
  match pathFault? path with
  | some e => .error e
  | none => h.walk (start path) (parts path)

def read (h : Host) (path : String) : Except PathFault Bytes :=
  match h.locate path with
  | .ok (_, .file content) => .ok content
  | .ok (_, .directory) => .error .isDirectory
  | .error e => .error e

def isFile (h : Host) (path : String) : Bool :=
  match h.read path with
  | .ok _ => true
  | .error _ => false

def content? (h : Host) (path : String) : Option Bytes := (h.read path).toOption

def putFile (h : Host) (location : Location) (content : Bytes) : Host :=
  { h with files := h.files.put location content }

def removeFile (h : Host) (location : Location) : Host :=
  { h with files := h.files.remove location }

/-- The components of a path, without the empty ones at its end. -/
def namedParts (path : String) : List String :=
  ((parts path).reverse.dropWhile (· == "")).reverse

/-- Whether the last name of a path can only be that of a directory. -/
def asksForDirectory (path part : String) : Bool :=
  path.endsWith "/" || part == "." || part == ".."

/-- Where a new file of this path would lie. -/
def place (h : Host) (path : String) : Except PathFault Location :=
  match pathFault? path, namedParts path with
  | some e, _ => .error e
  | none, parts =>
      match h.walk (start path) parts.dropLast, parts.getLast? with
      | .error e, _ => .error e
      | .ok (_, .file _), _ => .error .throughFile
      | .ok (_, .directory), none => .error .isDirectory
      | .ok (folder, .directory), some part =>
          let location := folder ++ [part]
          if asksForDirectory path part || h.isDirectory location then .error .isDirectory
          else if isNameTooLong part then .error .nameTooLong
          else .ok location

def write (h : Host) (path : String) (content : Bytes) : Except PathFault Host :=
  (h.place path).map fun location => h.putFile location content

/-- More than the length of any name in use. -/
def freshLength (h : Host) : Nat :=
  (h.files.keys.map fun file => (String.join file).length).foldl max 0 + 1

/-- A name longer than all others is not in use. -/
def freshName (h : Host) (start stop : String) : String :=
  start ++ String.ofList (List.replicate h.freshLength '0') ++ stop

def record (h : Host) (call : ToolCall) : Host := { h with calls := h.calls ++ [call] }

end Host

end StabsImport

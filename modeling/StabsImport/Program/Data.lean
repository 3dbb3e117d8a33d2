import StabsImport.Program.Types

/-!
# Data and comments

Data lies in mapped memory, in one block, clear of every function. New data takes the place of all
it overlaps, unless it is told to give way.
-/

namespace StabsImport.Program

def isMapped (p : Program) (first last : Int) : Bool :=
  if p.memory.isEmpty then first ≥ 0
  else p.memory.any fun block => block.1 ≤ first && last ≤ block.2

/-- Whether a body reaches into the addresses from `address` up to, not including, `stop`. -/
def bodyMeets (address stop : Int) (f : Function) : Bool :=
  f.low.lt (.ofInt stop) && (Bound.ofInt address).le f.high

def dataMeets (address stop : Int) (e : Int × DataItem) : Bool :=
  e.1 < stop && address < e.1 + e.2.length

def createData (address : Int) (type : TypeId) (length : Int) (clear : Bool) : Edit Unit := do
  let p ← get
  let stop := address + length
  if length ≤ 0 then reject (.dataWithoutLength (← typeName type) length)
  else if !p.isMapped address (stop - 1) then reject (.unmapped address)
  else
    match p.functions.values.find? (bodyMeets address stop) with
    | some f => reject (.dataOnCode address f.name)
    | none =>
        match p.data.entries.find? (dataMeets address stop), clear with
        | some e, false => reject (.dataOnData e.1)
        | _, _ =>
            let kept := p.data.entries.filter (!dataMeets address stop ·)
            set { p with data := (Ledger.mk kept).put address { type, length } }

/-- No text removes the comment. -/
def setComment (address : Int) (kind : CommentKind) (text : Option String) : Edit Unit :=
  modify fun p =>
    { p with comments :=
        match text with
        | some text => p.comments.put (address, kind) text
        | none => p.comments.remove (address, kind) }

def comment? (p : Program) (address : Int) (kind : CommentKind) : Option String :=
  p.comments.get? (address, kind)

end StabsImport.Program

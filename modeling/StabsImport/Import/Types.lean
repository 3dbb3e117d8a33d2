import StabsImport.Import.Resolve

/-!
# The type stage

First every enumeration and an empty shell for every structure and union of the table is
registered with the program, then the shells are filled. A reference met on the way to a shell not
yet filled holds the shell itself. Cancellation is looked at before each entry.
-/

namespace StabsImport.Import

open Document (Node)

/-- Registers the enumeration or the shell of an entry. -/
def registerEntry (index : Nat) (node : Node) : ImportM Unit := do
  let name := entryName node index
  let register (type : ImportM TypeId) : ImportM Unit :=
    onTypeFault (do setEntry index (← edit (Program.addType (← type)))) fun e =>
      diagnose typesSource s!"Failed to create type {name.plain}: {e.message}"
  match node with
  | .enumeration _ constants => register (newEnumeration name constants)
  | .composite c isRecord _ _ _ => register (newShell isRecord c.sizeBits name)
  | _ => pure ()

/-- Whether all entries from one on were registered, as opposed to a cancellation. -/
def registerFrom : Nat → List Node → ImportM Bool
  | _, [] => return true
  | index, node :: rest => do
      if ← isCancelled then return false
      registerEntry index node
      registerFrom (index + 1) rest

/-- Fills the composite of an entry. -/
def fillEntry (index : Nat) (node : Node) : ImportM Unit := do
  let s ← get
  match node, s.table[index]? with
  | .composite _ isRecord bases fields _, some (some shell) =>
      if (s.program.arena.composite? shell).isSome then fill typeAt shell isRecord bases fields
  | _, _ => pure ()

def fillFrom : Nat → List Node → ImportM Unit
  | _, [] => return
  | index, node :: rest => do
      if ← isCancelled then return
      fillEntry index node
      fillFrom (index + 1) rest

/-- Makes every enumeration, structure and union of the table. -/
def importTypes : ImportM Unit := do
  prepare
  let types := (← get).document.types
  if ← registerFrom 0 types then fillFrom 0 types

end StabsImport.Import

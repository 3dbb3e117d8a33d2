import StabsImport.Program.Data
import StabsImport.Program.Functions
import StabsImport.Program.NameOrder

/-!
# Summary of a program

What a program holds, as one JSON value: types by name, all else by address. Not all names can be
put in order, so not every program has a summary.
-/

namespace StabsImport.Program

def leInt (a b : Int) : Bool := decide (a ≤ b)

def leComment (a b : Int × CommentKind) : Bool :=
  a.1 < b.1 || (a.1 == b.1 && Text.leCodes a.2.text b.2.text)

def functionJson (p : Program) (f : Function) : Except Fault Json := do
  let returns ← f.returnType.mapM p.arena.name
  let parameters ← f.parameters.mapM fun q => do
    return Json.object
      [("name", .text q.name), ("type", ← p.arena.name q.type), ("storage", .text q.storage)]
  let locals ← f.locals.mapM fun v => do
    return Json.object
      [("name", .text v.name), ("type", ← p.arena.name v.type),
       ("stack_offset", .int v.stackOffset)]
  return .object
    [("name", .text f.name),
     ("entry", f.entry.toJson),
     ("body", .list [f.body.1.toJson, f.body.2.toJson]),
     ("comment", f.comment),
     ("return_type", returns.getD .null),
     ("parameters", .list parameters),
     ("locals", .list locals)]

def labelJson (address : Whole) (s : Symbol) : Json :=
  .object [("address", address.toJson), ("name", .text s.name), ("primary", .bool s.primary)]

def commentJson (e : (Int × CommentKind) × String) : Json :=
  .object [("address", .int e.1.1), ("type", .text e.1.2.text), ("text", .text e.2)]

def dataJson (p : Program) (e : Int × DataItem) : Except Fault Json := do
  return .object
    [("address", .int e.1), ("type", ← p.arena.name e.2.type), ("length", .int e.2.length)]

/-- The registered types, the names of their constants in this form. -/
def typesJson (p : Program) (keyText : Json → String) : Except Fault Json := do
  return .list (← (← byName p.registry).mapM fun e => p.arena.toJson keyText e.2)

def functionsJson (p : Program) : Except Fault Json := do
  return .list (← (p.functions.sorted leInt).mapM fun e => p.functionJson e.2)

/-- The labels of an address are given under the spelling it got from its first symbol. -/
def labelsJson (p : Program) : Json :=
  .list ((p.symbols.sorted fun a b => leInt a.value b.value).flatMap fun e =>
    (e.2.filter (·.kind == .label)).map (labelJson e.1))

def commentsJson (p : Program) : Json :=
  .list ((p.comments.sorted leComment).map commentJson)

def summaryFields (p : Program) (keyText : Json → String) :
    Except Fault (List (String × Json)) := do
  return [("data_types", ← p.typesJson keyText), ("functions", ← p.functionsJson),
    ("labels", p.labelsJson), ("comments", p.commentsJson),
    ("data", .list (← (p.data.sorted leInt).mapM p.dataJson))]

end StabsImport.Program

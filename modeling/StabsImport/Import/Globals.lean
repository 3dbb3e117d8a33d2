import StabsImport.Import.Functions

/-!
# The global stage

Every global with an address gets data of its type and a label there.
-/

namespace StabsImport.Import

open Document (Variable)

def placeGlobal (v : Variable) : ImportM Unit := do
  let address := v.storage.globalAddress
  let type ← inside 1 (variableTypeOf (some v.type))
  onRejection (do edit (Program.createData address type (← typeLength type) true))
    (reportFault globalsSource)
  onRejection
    (do discard (edit (Program.createLabel (.ofInt address) v.common.name true)))
    (reportFault globalsSource)
  count fun t => { t with globals := t.globals + 1 }

def importGlobalsFrom : List Variable → ImportM Unit
  | [] => return
  | v :: rest => do
      if ← isCancelled then return
      if v.storage.globalAddress ≥ 0 then placeGlobal v
      importGlobalsFrom rest

def importGlobals : ImportM Unit := do
  prepare
  importGlobalsFrom ((← get).document.files.flatMap (·.globals))

end StabsImport.Import

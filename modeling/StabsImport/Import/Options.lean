/-!
# Import options

Which stages run, which comments they leave, and where the document comes from. An empty path is
no path.
-/

namespace StabsImport

structure Options where
  importTypes : Bool := true
  importFunctions : Bool := true
  importGlobals : Bool := true
  markInlined : Bool := true
  outputLines : Bool := true
  elfPath : String := ""
  jsonPath : String := ""
  toolPath : String := ""
  /-- In seconds; there is no limit unless it is positive. -/
  timeout : Int := 0
  deriving DecidableEq, Repr, Inhabited

end StabsImport

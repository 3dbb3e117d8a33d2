import StabsImport.Json.Key
import StabsImport.Json.Printer

/-!
# Inlined sections

The breadcrumbs of a function say which file the code from an address on came from. A boundary
stands where the active file leaves the function's own path or comes back to it; files that follow
one another away from that path are one section.
-/

namespace StabsImport.Import

structure Breadcrumb where
  address : Int
  path : Json
  deriving DecidableEq, Inhabited

structure Boundary where
  address : Int
  comment : String
  deriving DecidableEq, Repr, Inhabited

def inlinedFrom (path : Json) : String := "inlined from " ++ path.plain

def endOfInlined : String := "end of inlined section"

/-- The boundaries from a breadcrumb on; `inlined` says whether the code before it was. -/
def boundariesFrom (path : Json) : Bool → List Breadcrumb → List Boundary
  | _, [] => []
  | inlined, crumb :: rest =>
      let now := !crumb.path.isEqual path
      let later := boundariesFrom path now rest
      if now && !inlined then ⟨crumb.address, inlinedFrom crumb.path⟩ :: later
      else if !now && inlined then ⟨crumb.address, endOfInlined⟩ :: later
      else later

def inlineBoundaries (path : Json) (crumbs : List Breadcrumb) : List Boundary :=
  boundariesFrom path false crumbs

/-- A function's own path, or that of its file. -/
def primaryPath (functionPath filePath : Json) : Json :=
  if functionPath = .null then filePath else functionPath

end StabsImport.Import

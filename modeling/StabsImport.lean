import StabsImport.Main
import StabsImport.Proofs.Agreement
import StabsImport.Proofs.CodeAndData
import StabsImport.Proofs.Completion
import StabsImport.Proofs.Cycles
import StabsImport.Proofs.Declarations
import StabsImport.Proofs.Failures
import StabsImport.Proofs.Files
import StabsImport.Proofs.Identities
import StabsImport.Proofs.Inputs
import StabsImport.Proofs.Layouts
import StabsImport.Proofs.Permanence
import StabsImport.Proofs.Readers
import StabsImport.Proofs.Refusals
import StabsImport.Proofs.Repetition
import StabsImport.Proofs.Sharing
import StabsImport.Proofs.Summaries
import StabsImport.Proofs.SymbolTable
import StabsImport.Proofs.Omission
import StabsImport.Proofs.Barren
import StabsImport.Proofs.Settling
import StabsImport.Proofs.Annotations
import StabsImport.Proofs.Cutoff
import StabsImport.Proofs.Structures
import StabsImport.Proofs.Convergence
import StabsImport.Proofs.Refilling
import StabsImport.Proofs.Catalogue
import StabsImport.Proofs.Sightings
import StabsImport.Proofs.Variables
import StabsImport.Proofs.ArgumentStorage
import StabsImport.Proofs.LocalSelection
import StabsImport.Proofs.Renaming
import StabsImport.Proofs.SizedPositions
import StabsImport.Proofs.Inlining
import StabsImport.Proofs.Precedence
import StabsImport.Proofs.InputChoice
import StabsImport.Proofs.Respelling
import StabsImport.Proofs.Workshop
import StabsImport.Proofs.RepeatedRuns

import Mathlib.Data.Int.Notation
import MiniCoder.Domain.States
import MiniCoder.Library.Table

/-!
# The tables of the design document

The project, the design documents with their sections, and the artifact exports, with the unique
keys of the migrations.
-/

open Storage

namespace MiniCoder

structure Project where
  id : String
  name : String
  state : ProjectState := .active
  version : ℕ := 1
  deriving DecidableEq, Repr

instance : Row Project := .ofKey (·.id)

structure DesignDocument where
  id : String
  projectId : String
  state : DesignDocumentState := .draft
  version : ℕ := 1
  deriving DecidableEq, Repr

instance : Row DesignDocument := .ofKey (·.id)

structure DesignDocumentSection where
  id : String
  designDocumentId : String
  sectionName : String
  content : Option String
  orderIndex : ℕ := 0
  version : ℕ := 1
  deriving DecidableEq, Repr

instance : Row DesignDocumentSection := .ofKeys (·.id) (fun s => (s.designDocumentId, s.sectionName))

structure ArtifactExport where
  id : String
  projectId : String
  artifactType : String
  state : ArtifactExportState := .pending
  content : Option String := none
  exportedAt : Option ℤ := none
  designDocumentId : Option String := none
  deriving DecidableEq, Repr

instance : Row ArtifactExport := .ofKey (·.id)

structure DesignDecision where
  id : String
  projectId : String
  title : String
  context : Option String := none
  decision : String
  consequences : Option String := none
  status : String := "accepted"
  deriving DecidableEq, Repr

instance : Row DesignDecision := .ofKey (·.id)

structure GlossaryTerm where
  id : String
  projectId : Option String := none
  term : String
  definition : String
  category : Option String := none
  deriving DecidableEq, Repr

instance : Row GlossaryTerm := .ofKey (·.id)

/-- The tables of the design document. -/
structure DesignTables where
  projects : Table Project := .empty
  documents : Table DesignDocument := .empty
  sections : Table DesignDocumentSection := .empty
  artifactExports : Table ArtifactExport := .empty
  decisions : Table DesignDecision := .empty
  glossaryTerms : Table GlossaryTerm := .empty

end MiniCoder

import Mathlib.Data.Int.Notation
import Mathlib.Data.Rat.Defs
import MiniCoder.Domain.States
import MiniCoder.Library.Table

/-!
# The tables of the agent adapters

The registry of adapters with their capabilities and revisions, and the runs of the adapters with what
is recorded of them, with the unique keys of the migrations.  Columns of JSON text that no modelled
function reads hold the text.
-/

open Storage

namespace MiniCoder

/-! ### The registry -/

structure AgentAdapter where
  id : String
  role : String
  name : String
  implementation : String
  isActive : Bool := true
  version : ℕ := 1
  deriving DecidableEq, Repr

instance : Row AgentAdapter := .ofKeys (·.id) (fun a => (a.role, a.name))

structure AgentCapability where
  id : String
  adapterId : String
  capability : String
  deriving DecidableEq, Repr

instance : Row AgentCapability := .ofKey (·.id)

/-- A row of `adapter_revisions`; `(adapter_id, version)` is indexed, and not unique. -/
structure AdapterRevision where
  id : String
  adapterId : String
  role : String
  name : String
  implementation : String
  version : ℕ
  capabilities : List AgentCapabilityToken
  isActive : Bool
  createdAt : ℤ
  deriving DecidableEq, Repr

instance : Row AdapterRevision := .ofKey (·.id)

/-! ### The runs -/

structure AgentRun where
  id : String
  adapterId : String
  adapterRevisionId : Option String
  projectId : Option String := none
  featureRunId : Option String := none
  role : String
  state : AgentRunState := .queued
  inputSummary : String
  outputSummary : Option String := none
  error : Option String := none
  adapterName : String
  adapterImplementation : String
  adapterVersion : ℕ
  capabilitiesUsed : List String
  promptTemplateVersion : Option String := none
  startedAt : Option ℤ := none
  endedAt : Option ℤ := none
  tokensUsed : Option ℕ := none
  costUsd : Option ℚ := none
  provider : Option String := none
  model : Option String := none
  version : ℕ := 1
  deriving DecidableEq, Repr

instance : Row AgentRun := .ofKey (·.id)

structure AgentContextPack where
  id : String
  agentRunId : String
  content : String
  contentSchemaVersion : String := "1.0.0"
  deriving DecidableEq, Repr

instance : Row AgentContextPack := .ofKey (·.id)

structure AgentToolOperation where
  id : String
  agentRunId : String
  toolName : String
  inputSummary : Option String
  outputSummary : Option String
  status : String
  durationMs : Option ℕ
  occurredAt : ℤ
  deriving DecidableEq, Repr

instance : Row AgentToolOperation := .ofKey (·.id)

structure AgentError where
  id : String
  agentRunId : String
  errorType : String
  message : String
  occurredAt : ℤ
  deriving DecidableEq, Repr

instance : Row AgentError := .ofKey (·.id)

/-- The tables of the agent adapters. -/
structure AgentTables where
  adapters : Table AgentAdapter := .empty
  capabilities : Table AgentCapability := .empty
  revisions : Table AdapterRevision := .empty
  runs : Table AgentRun := .empty
  contextPacks : Table AgentContextPack := .empty
  toolOperations : Table AgentToolOperation := .empty
  errors : Table AgentError := .empty

end MiniCoder

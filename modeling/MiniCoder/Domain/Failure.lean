import Mathlib.Data.Int.Notation
import MiniCoder.Domain.States

/-!
# What the code throws

Every error class the modelled functions throw, with the fields its constructor takes, and the
problem details a `CommandError` carries.
-/

namespace MiniCoder

/-- `ProblemDetail` of `commands/types.ts`. -/
structure ProblemDetail where
  type : String
  title : String
  status : ℕ
  detail : String
  instance? : Option String := none
  deriving DecidableEq, Repr

/-- An exception: one constructor for each error class. -/
inductive Failure
  | command (problem : ProblemDetail)
  | mergeGateBlocked (reasons : List String) (problem : ProblemDetail)
  | optimisticLock (table id : String) (expectedVersion : ℕ) (actualVersion : ℤ)
  | staleFence (lockId : String) (heldFence : ℕ) (currentFence : ℤ)
  | transition (fromState toState machine : String)
  | authorization (actorId : String) (actorRole requiredRole : UserRole) (command : String)
  | lockConflict (resourceKey currentHolder : String)
  | lockRowMissing (projectId resourceKey : String)
  /-- The database refused a statement: a constraint, a lost connection. -/
  | database
  /-- `SerializationFailureError`: a `SERIALIZABLE` transaction met a concurrent one. -/
  | serializationFailure
  /-- The source host refused a call. -/
  | scm (status : Option ℕ)
  /-- A plain `Error`. -/
  | error (message : String)
  deriving DecidableEq, Repr

/-- `CommandError.problem.type`; a `MergeGateBlockedError` is one too. -/
def Failure.problemType : Failure → Option String
  | .command problem => some problem.type
  | .mergeGateBlocked _ problem => some problem.type
  | _ => none

end MiniCoder

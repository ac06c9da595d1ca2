import Rollout.Json.Basic

/-!
# The states of a stack at its provider

* `StackState`: the sixteen states. An operation is in progress, complete or failed; a create or an
  update that goes wrong is rolled back, which again is in progress, complete or failed.
* `isInProgress`, `isComplete`, `isRollback`, `isFailed`, `isDeleted`: the classes used.
-/

namespace Rollout

/-- Where a stack is in its life at the provider. -/
inductive StackState where
  | createInProgress
  | createFailed
  | createComplete
  | rollbackInProgress
  | rollbackFailed
  | rollbackComplete
  | updateInProgress
  | updateCompleteCleanupInProgress
  | updateComplete
  | updateRollbackInProgress
  | updateRollbackFailed
  | updateRollbackCompleteCleanupInProgress
  | updateRollbackComplete
  | deleteInProgress
  | deleteFailed
  | deleteComplete
  deriving DecidableEq, Repr, Inhabited

namespace StackState

/-- The name of the state. -/
def name : StackState → String
  | createInProgress => "CREATE_IN_PROGRESS"
  | createFailed => "CREATE_FAILED"
  | createComplete => "CREATE_COMPLETE"
  | rollbackInProgress => "ROLLBACK_IN_PROGRESS"
  | rollbackFailed => "ROLLBACK_FAILED"
  | rollbackComplete => "ROLLBACK_COMPLETE"
  | updateInProgress => "UPDATE_IN_PROGRESS"
  | updateCompleteCleanupInProgress => "UPDATE_COMPLETE_CLEANUP_IN_PROGRESS"
  | updateComplete => "UPDATE_COMPLETE"
  | updateRollbackInProgress => "UPDATE_ROLLBACK_IN_PROGRESS"
  | updateRollbackFailed => "UPDATE_ROLLBACK_FAILED"
  | updateRollbackCompleteCleanupInProgress => "UPDATE_ROLLBACK_COMPLETE_CLEANUP_IN_PROGRESS"
  | updateRollbackComplete => "UPDATE_ROLLBACK_COMPLETE"
  | deleteInProgress => "DELETE_IN_PROGRESS"
  | deleteFailed => "DELETE_FAILED"
  | deleteComplete => "DELETE_COMPLETE"

/-- All states. -/
def all : List StackState :=
  [createInProgress, createFailed, createComplete, rollbackInProgress, rollbackFailed,
   rollbackComplete, updateInProgress, updateCompleteCleanupInProgress, updateComplete,
   updateRollbackInProgress, updateRollbackFailed, updateRollbackCompleteCleanupInProgress,
   updateRollbackComplete, deleteInProgress, deleteFailed, deleteComplete]

/-- The state of a name. -/
def ofName? (s : String) : Option StackState := all.find? (·.name == s)

/-- An operation is running. -/
def isInProgress : StackState → Bool
  | createInProgress | rollbackInProgress | updateInProgress | updateCompleteCleanupInProgress
  | updateRollbackInProgress | updateRollbackCompleteCleanupInProgress | deleteInProgress => true
  | _ => false

/-- The last create or update ended cleanly. -/
def isComplete : StackState → Bool
  | createComplete | updateComplete => true
  | _ => false

/-- The last create or update is being rolled back, or has been. -/
def isRollback : StackState → Bool
  | rollbackInProgress | rollbackFailed | rollbackComplete | updateRollbackInProgress
  | updateRollbackFailed | updateRollbackCompleteCleanupInProgress | updateRollbackComplete => true
  | _ => false

/-- The last operation ended in a failure that was not undone. -/
def isFailed : StackState → Bool
  | createFailed | rollbackFailed | updateRollbackFailed | deleteFailed => true
  | _ => false

/-- The stack is gone. -/
def isDeleted : StackState → Bool
  | deleteComplete => true
  | _ => false

/-- A state by its name. -/
def toJson (s : StackState) : Json := .str s.name

/-- Reads a state: its name, or an object that binds the name to `null`. -/
def ofJson? : Json → Option StackState
  | .str s => ofName? s
  | .obj [(s, .null)] => ofName? s
  | _ => none

end StackState

end Rollout

import Rollout.Dag.Refusal

/-!
# Errors

* `Error`: everything that can go wrong between a configuration and a finished plan.
* `Error.message`, `Error.category`, `Error.cause?`: how an error is shown.
* `Error.isRecoverable`: whether submitting the same work again may help.
-/

namespace Rollout

/-- What went wrong. -/
inductive Error where
  /-- A graph operation was refused. -/
  | graph (cause : GraphError)
  /-- A step declared a dependency that the graph refused. -/
  | dependency (dependent dependency : String) (cause : GraphError)
  /-- A target names no planned step. -/
  | target (name : String)
  /-- A setting is wrong; the field it stands in may be known. -/
  | configuration (text : String) (field : Option String)
  /-- A lookup in a variable failed. -/
  | lookup (kind text : String)
  /-- A blueprint is missing, taken, or did not render. -/
  | blueprint (name text : String)
  /-- A provider refused an operation on a stack. -/
  | provider (operation stack text : String)
  /-- Reading from the outside failed. -/
  | io (operation cause : String)
  /-- A document could not be decoded or encoded. -/
  | serialization (format cause : String)
  /-- The engine was used against its rules. -/
  | internal (text : String)
  deriving DecidableEq, Repr, Inhabited

namespace Error

/-- The text shown for an error. -/
def message : Error → String
  | graph cause => cause.message
  | dependency dependent needed cause =>
    "Invalid dependency '" ++ needed ++ "' declared by '" ++ dependent ++ "': " ++ cause.message
  | target name => "Target not found: " ++ name
  | configuration text _ => "Configuration error: " ++ text
  | lookup kind text => "Lookup '" ++ kind ++ "' failed: " ++ text
  | blueprint name text => "Blueprint '" ++ name ++ "' error: " ++ text
  | provider operation stack text =>
    "Provider operation " ++ operation ++ " failed for " ++ stack ++ ": " ++ text
  | io operation _ => "IO operation failed: " ++ operation
  | serialization format _ => "Serialization failed: " ++ format
  | internal text => "Internal error: " ++ text

/-- The kind of the error, for logs. -/
def category : Error → String
  | graph _ => "dag"
  | dependency _ _ _ => "dependency"
  | target _ => "target"
  | configuration _ _ => "configuration"
  | lookup _ _ => "lookup"
  | blueprint _ _ => "blueprint"
  | provider _ _ _ => "provider"
  | io _ _ => "io"
  | serialization _ _ => "serialization"
  | internal _ => "internal"

/-- The text of the error beneath, where one is kept apart. -/
def cause? : Error → Option String
  | dependency _ _ cause => some cause.message
  | io _ cause => some cause
  | serialization _ cause => some cause
  | _ => none

/-- Doing the same again may succeed: a provider may be throttled, an output may appear later. -/
def isRecoverable : Error → Bool
  | provider _ _ _ | io _ _ | lookup _ _ => true
  | _ => false

/-- An input or output failure with nothing known of the operation. -/
def ofIO (cause : String) : Error := .io "io_operation" cause

end Error

end Rollout

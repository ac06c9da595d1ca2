import Rollout.Json.Basic

/-!
# Where a step stands

* `Status`: the six stages, all but the first with an optional reason.
* `isDone`: the step will not be advanced again. `isOk`: it ended well.
* `toJson` and `ofJson?`: the two-field form `status` and `reason`, and its reader.
-/

namespace Rollout

/-- Where a step is in its life. Pending and submitted steps are in flight; the others are done. -/
inductive Status where
  | pending
  | submitted (reason : Option String)
  | complete (reason : Option String)
  | skipped (reason : Option String)
  | failed (reason : Option String)
  /-- The run was called off before the step was done. -/
  | cancelled (reason : Option String)
  deriving DecidableEq, Repr, Inhabited

namespace Status

/-- The name of the stage. -/
def name : Status → String
  | pending => "pending"
  | submitted _ => "submitted"
  | complete _ => "complete"
  | skipped _ => "skipped"
  | failed _ => "failed"
  | cancelled _ => "cancelled"

/-- Why the step is where it is. -/
def reason : Status → Option String
  | pending => none
  | submitted r | complete r | skipped r | failed r | cancelled r => r

/-- The step has not been touched. -/
def isPending : Status → Bool
  | pending => true
  | _ => false

/-- The step is under way. -/
def isSubmitted : Status → Bool
  | submitted _ => true
  | _ => false

/-- The step did its work. -/
def isComplete : Status → Bool
  | complete _ => true
  | _ => false

/-- The step had nothing to do. -/
def isSkipped : Status → Bool
  | skipped _ => true
  | _ => false

/-- The step failed. -/
def isFailed : Status → Bool
  | failed _ => true
  | _ => false

/-- The step was called off. -/
def isCancelled : Status → Bool
  | cancelled _ => true
  | _ => false

/-- The step will not be advanced again. -/
def isDone : Status → Bool
  | pending | submitted _ => false
  | _ => true

/-- The step ended well. -/
def isOk : Status → Bool
  | complete _ | skipped _ => true
  | _ => false

/-- The name, with the reason in parentheses. -/
def render (s : Status) : String :=
  match s.reason with
  | some reason => s.name ++ " (" ++ reason ++ ")"
  | none => s.name

/-- A pending status has no reason; any other one has a field for it, `null` when there is none. -/
def toJson : Status → Json
  | pending => .obj [("status", .str "pending")]
  | s => .obj [("status", .str s.name), ("reason", Json.ofOption .str s.reason)]

/-- The name of a stage: a text, or an object that binds it to `null`. -/
def stageName? : Json → Option String
  | .str s => some s
  | .obj [(s, .null)] => some s
  | _ => none

/-- A reason: a text, or none for `null`. -/
def reason? : Json → Option (Option String)
  | .null => some none
  | .str s => some (some s)
  | _ => none

/-- The status of a stage with a reason field. Only `null` can stand by a pending one. -/
def ofParts? (stage : String) (reason : Json) : Option Status :=
  match stage with
  | "pending" => if reason.isNull then some pending else none
  | "submitted" => (reason? reason).map submitted
  | "complete" => (reason? reason).map complete
  | "skipped" => (reason? reason).map skipped
  | "failed" => (reason? reason).map failed
  | "cancelled" => (reason? reason).map cancelled
  | _ => none

/-- Reads a status: an object with a stage and perhaps a reason, or a pair of the two. -/
def ofJson? (value : Json) : Option Status :=
  match value with
  | .arr [stage, reason] => do ofParts? (← stageName? stage) reason
  | .obj _ => do
    ofParts? (← stageName? (← value.field? "status")) ((value.field? "reason").getD .null)
  | _ => none

end Status

end Rollout

import Rollout.Workspace.Basic

/-!
# Destroying stacks

Stacks are destroyed in the reverse of the order in which they are built: what requires a stack goes
first.

* `Destroy.submit`: the first call decides whether there is anything to destroy.
* `Destroy.check`: later calls tell whether the stack is gone.
* `Workspace.destroyPlan`: the plan.
-/

namespace Rollout

namespace Destroy

/-- The status of a stack that is being destroyed. -/
def underWay : Status := .submitted (some "submitted for destruction")

/-- The status of a stack that was not there. -/
def missing : Status := .skipped (some "does not exist in cloudformation")

/-- Whether a stack is gone, from how it is described. -/
def check : Option Deployment → Status
  | none => .complete (some "stack destroyed")
  | some d =>
    if d.state.isDeleted then .complete (some "stack destroyed")
    else if d.state = .deleteFailed then .failed (some d.state.name)
    else underWay

/-- Decides what to do with a stack, from how it was described. An operation that is still running
is waited for; if it destroys the stack, nothing more is asked. -/
def submit (s : Stack) (status : Status) : Option Deployment → ExceptT Error Job (Bool × Status)
  | none => pure (false, missing)
  | some d =>
    if d.state.isDeleted then pure (false, missing)
    else if d.state = .deleteInProgress then pure (true, underWay)
    else if d.state.isInProgress then pure (false, status)
    else do
      let _ : Unit ← Job.request (.destroy s.fqn)
      pure (true, underWay)

/-- One call for a stack. -/
def attempt (s : Stack) (submitted : Bool) (status : Status) :
    ExceptT Error Job (Bool × Status) := do
  if !s.enabled then pure (submitted, .skipped (some "disabled"))
  else
    let described : Option Deployment ← Job.request (.describe s.fqn)
    if submitted then pure (true, check described) else submit s status described

/-- The action that destroys a stack. It remembers whether it has asked for that. -/
def action (s : Stack) : Action Bool where
  advance submitted status := do
    match ← (attempt s submitted status).run with
    | .ok (submitted, status) => pure (submitted, .settled status)
    | .error e => pure (submitted, .error e.message)

end Destroy

/-- The plan that destroys the stacks. -/
def Workspace.destroyPlan (w : Workspace) (id : String) (targets : Option (List String)) :
    Except Error (Plan Bool) :=
  w.plan id "Destroy stacks" targets true Destroy.action false

end Rollout

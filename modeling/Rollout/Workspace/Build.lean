import Rollout.Dag.Export
import Rollout.Workspace.Basic

/-!
# Building stacks

A build creates the stacks that are not there and updates the others, dependencies first.

* `Change`: what has been submitted for a stack.
* `Build.submit`: the first call decides between creating, updating and leaving the stack alone.
* `Build.check`: later calls tell from the state of the stack how the change goes.
* `Workspace.buildPlan`: the plan, and `Workspace.renderGraph`, its graph as text.
-/

namespace Rollout

/-- What has been submitted for a stack. -/
inductive Change where
  | create
  | update
  deriving DecidableEq, Repr, Inhabited

namespace Change

/-- What is said while the change is under way, and when it is complete. -/
def reason : Change → String
  | create => "creating new stack"
  | update => "updating existing stack"

/-- What is said when the change is rolled back. -/
def rollbackReason : Change → String
  | create => "rolling back new stack"
  | update => "rolling back update"

end Change

namespace Build

/-- A stack as it is submitted with a template. -/
def submission (s : Stack) (template : RenderedTemplate) : Submission := ⟨s.fqn, template, s.tags⟩

/-- Creates a stack that is not there. -/
def createStack (w : Workspace) (s : Stack) : ExceptT Error Job (Option Change × Status) := do
  let template ← w.resolve s
  let _ : Unit ← Job.request (.create (submission s template))
  pure (some .create, .submitted (some Change.create.reason))

/-- Updates a stack, unless its template has not changed. -/
def updateStack (w : Workspace) (s : Stack) : ExceptT Error Job (Option Change × Status) := do
  let template ← w.resolve s
  let outcome : UpdateOutcome ← Job.request (.update (submission s template))
  match outcome with
  | .noChange => pure (none, .skipped (some "nochange"))
  | .submitted => pure (some .update, .submitted (some Change.update.reason))

/-- Decides what to do with a stack, from how it was described. An operation that is still running
is waited for. -/
def submit (w : Workspace) (s : Stack) (status : Status) :
    Option Deployment → ExceptT Error Job (Option Change × Status)
  | none => createStack w s
  | some existing =>
    if s.isUpdateBlocked then pure (none, .skipped (some "locked"))
    else if existing.state = .rollbackComplete then
      pure (none, .failed (some "stack is in ROLLBACK_COMPLETE state"))
    else if existing.state.isInProgress then pure (none, status)
    else updateStack w s

/-- How a submitted change goes, from how the stack is described. -/
def check (change : Change) : Option Deployment → Status
  | none => .failed (some "stack disappeared after submission")
  | some d =>
    if d.state.isRollback then .failed (some change.rollbackReason)
    else if d.state.isFailed then .failed (some d.state.name)
    else if d.state.isComplete then .complete (some change.reason)
    else .submitted (some d.state.name)

/-- One call for a stack. -/
def attempt (w : Workspace) (s : Stack) (change : Option Change) (status : Status) :
    ExceptT Error Job (Option Change × Status) := do
  if !s.enabled then pure (change, .skipped (some "disabled"))
  else
    let described : Option Deployment ← Job.request (.describe s.fqn)
    match change with
    | some submitted => pure (change, check submitted described)
    | none => submit w s status described

/-- The action that builds a stack. It remembers what it has submitted. -/
def action (w : Workspace) (s : Stack) : Action (Option Change) where
  advance change status := do
    match ← (attempt w s change status).run with
    | .ok (change, status) => pure (change, .settled status)
    | .error e => pure (change, .error e.message)

end Build

namespace Workspace

/-- The plan that builds the stacks. -/
def buildPlan (w : Workspace) (id : String) (targets : Option (List String)) :
    Except Error (Plan (Option Change)) :=
  w.plan id "Create/Update stacks" targets false (Build.action w) none

/-- The graph of the plan that builds the stacks, without implied edges if they are not wanted.
Nothing is built. -/
def renderGraph (w : Workspace) (format : GraphFormat) (reduce : Bool)
    (targets : Option (List String)) : Except Error String := do
  let p ← w.buildPlan "" targets
  pure (p.graph.dag.render format reduce)

end Workspace

end Rollout

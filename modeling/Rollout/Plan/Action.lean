import Rollout.Plan.Job
import Rollout.Plan.Status

/-!
# Actions

An action moves a step forward: called again and again with the status of the step, it says what
the status is next. Between its calls it may keep a memo of some type `μ`.

* `Outcome`: how a call ends. `Outcome.status`: the status that comes of it; a call that goes wrong
  fails the step.
* `Iteration`: what calls of an action by itself have left, without a run around it: its memo, the
  status, and the world of the provider. `Iteration.calls`: any number of further calls, each made
  in one go.
-/

namespace Rollout

/-- How a call of an action ends. -/
inductive Outcome where
  /-- With the next status. -/
  | settled (status : Status)
  /-- With an error. -/
  | error (message : String)
  /-- With a crash, which leaves a message or not. -/
  | crash (message : Option String)
  deriving DecidableEq, Repr, Inhabited

namespace Outcome

/-- The status that comes of a call. -/
def status : Outcome → Status
  | settled status => status
  | error message => .failed (some message)
  | crash message => .failed (some (message.getD "step action panicked"))

end Outcome

/-- What one call does, given the memo of the calls before and the status of the step: a job that
ends with the next memo and the outcome. -/
structure Action (μ : Type) where
  /-- One call. -/
  advance : μ → Status → Job (μ × Outcome)

/-! ## Calling an action again and again -/

/-- What the calls of an action have left. -/
structure Iteration (μ σ : Type) where
  /-- What the action remembers. -/
  memo : μ
  /-- The status that came of the last call, or the one before the first. -/
  status : Status
  /-- What the provider remembers. -/
  world : σ

namespace Iteration

variable {μ σ : Type}

/-- One more call of the action, made in one go. A crash leaves the memo as it was. -/
def call (provider : Provider σ) (action : Action μ) (i : Iteration μ σ) : Iteration μ σ :=
  match (action.advance i.memo i.status).perform provider i.world with
  | (world, .ok (memo, outcome)) => ⟨memo, outcome.status, world⟩
  | (world, .error message) => ⟨i.memo, (Outcome.crash message).status, world⟩

/-- Some number of further calls. -/
def calls (provider : Provider σ) (action : Action μ) : Nat → Iteration μ σ → Iteration μ σ
  | 0, i => i
  | n + 1, i => (calls provider action n i).call provider action

end Iteration

end Rollout

import Rollout.Dag.Walk
import Rollout.Error
import Rollout.Plan.PollPolicy

/-!
# How a plan is carried out

The options of a run. Each may be left open, so that options can be laid over others.

* `ExecutionOptions.validate`: the first fault of some options.
* `ExecutionOptions.merge`: options laid over others, if the result has no fault.
* `ExecutionOptions.pollPolicy` and `ExecutionOptions.walker`: what the options ask for.
-/

namespace Rollout

/-- The options of a run; what is left open has a standard value. -/
structure ExecutionOptions where
  /-- How many calls of actions may go on at once; any number if it is zero. -/
  maxParallel : Option Nat := none
  /-- The first wait between attempts, in milliseconds. -/
  pollIntervalMs : Option Nat := none
  /-- The longest wait, in milliseconds. -/
  maxPollIntervalMs : Option Nat := none
  /-- By what each wait is longer than the one before. -/
  backoffMultiplier : Option Float := none
  /-- Add some time by chance. -/
  jitter : Option Bool := none
  deriving Inhabited

namespace ExecutionOptions

/-! ## Standard values -/

/-- The standard number of calls at once. -/
def standardMaxParallel : Nat := 10
/-- The standard first wait. -/
def standardPollIntervalMs : Nat := 1000
/-- The standard longest wait. -/
def standardMaxPollIntervalMs : Nat := 10000
/-- The standard multiplier. -/
def standardBackoffMultiplier : Float := 1.5
/-- Chance plays a part unless it is switched off. -/
def standardJitter : Bool := true

/-- The options with nothing left open. -/
def standard : ExecutionOptions where
  maxParallel := some standardMaxParallel
  pollIntervalMs := some standardPollIntervalMs
  maxPollIntervalMs := some standardMaxPollIntervalMs
  backoffMultiplier := some standardBackoffMultiplier
  jitter := some standardJitter

/-- How many calls of actions may go on at once. -/
def parallel (o : ExecutionOptions) : Nat := o.maxParallel.getD standardMaxParallel

/-- The first wait, in nanoseconds. -/
def pollInterval (o : ExecutionOptions) : Nat :=
  o.pollIntervalMs.getD standardPollIntervalMs * 1000000

/-- The longest wait, in nanoseconds. -/
def maxPollInterval (o : ExecutionOptions) : Nat :=
  o.maxPollIntervalMs.getD standardMaxPollIntervalMs * 1000000

/-- By what each wait is longer than the one before. -/
def multiplier (o : ExecutionOptions) : Float :=
  o.backoffMultiplier.getD standardBackoffMultiplier

/-- How long to wait between attempts. -/
def pollPolicy (o : ExecutionOptions) : PollPolicy :=
  ⟨o.pollInterval, o.maxPollInterval, o.multiplier, o.jitter.getD standardJitter⟩

/-- How steps are started and how many calls go on at once. -/
def walker (o : ExecutionOptions) : Walker := .ofLimit o.parallel

/-! ## Faults -/

/-- What can be wrong with options. -/
inductive Fault where
  /-- The first wait is no time at all. -/
  | zeroInterval
  /-- The longest wait is shorter than the first. -/
  | limitBelowInterval
  /-- The multiplier is infinite, undefined, or less than one. -/
  | badMultiplier
  deriving DecidableEq, Repr, Inhabited

/-- The error for a fault. -/
def Fault.toError : Fault → Error
  | zeroInterval =>
    .configuration "poll_interval_ms must be greater than 0" (some "execution.poll_interval_ms")
  | limitBelowInterval =>
    .configuration "max_poll_interval_ms cannot be lower than poll_interval_ms"
      (some "execution.max_poll_interval_ms")
  | badMultiplier =>
    .configuration "backoff_multiplier must be a finite number of at least 1.0"
      (some "execution.backoff_multiplier")

/-- The first fault of some options. -/
def fault? (o : ExecutionOptions) : Option Fault :=
  if o.pollIntervalMs = some 0 then some .zeroInterval
  else if o.maxPollInterval < o.pollInterval then some .limitBelowInterval
  else if o.backoffMultiplier.any fun m => !m.isFinite || m < 1.0 then some .badMultiplier
  else none

/-- The options have no fault. -/
def validate (o : ExecutionOptions) : Except Error Unit :=
  match o.fault? with
  | some fault => .error fault.toError
  | none => .ok ()

/-! ## Layers -/

/-- Options laid over others: what they leave open shows through. -/
def layeredOn (o base : ExecutionOptions) : ExecutionOptions where
  maxParallel := o.maxParallel <|> base.maxParallel
  pollIntervalMs := o.pollIntervalMs <|> base.pollIntervalMs
  maxPollIntervalMs := o.maxPollIntervalMs <|> base.maxPollIntervalMs
  backoffMultiplier := o.backoffMultiplier <|> base.backoffMultiplier
  jitter := o.jitter <|> base.jitter

/-- Options laid over others, if the result has no fault. -/
def merge (base o : ExecutionOptions) : Except Error ExecutionOptions :=
  match (o.layeredOn base).fault? with
  | some fault => .error fault.toError
  | none => .ok (o.layeredOn base)

end ExecutionOptions

end Rollout

import Rollout.Plan.Basic
import Rollout.Plan.Worker

/-!
# Runs

A run carries a plan out: a walk over its graph gives each step that has become possible a worker,
and the workers advance their steps side by side. A run goes on by moves, each of which is atomic;
in between any worker may be next.

* `Run.setStatus`: sets the status of a step and tells the sink, unless it is the same.
* `Run.work?`: what a worker does next. `Run.stop?`: a waiting worker hears of the cancellation.
* `Run.settle?`: the walk takes the end of a worker.
* `Move` and `Run.move?`: the moves of workers, of the walk, of time, and of who cancels.
* `Run.Steps`: one run comes from another by some moves.
-/

namespace Rollout

/-- A plan being carried out in the world of a provider. -/
structure Run (μ σ : Type) where
  /-- The plan, whose steps stand where they stand now. -/
  plan : Plan μ
  /-- Which steps have been given to workers, and which have ended. -/
  walk : Walk String
  /-- The workers of the steps that have not ended, by the name of the step. -/
  workers : Table (Worker μ) := .empty
  /-- The slots for calls of actions. -/
  slots : Slots
  /-- What the provider remembers. -/
  world : σ
  /-- The run has been called off. -/
  cancelled : Bool := false
  /-- The sink has broken down outside of every worker; nothing will come of the run. -/
  broken : Bool := false
  /-- The nanoseconds since the run began. -/
  clock : Nat := 0
  /-- What has been told so far. -/
  journal : Journal
  /-- The calls of actions so far, each with the status it was given, the last one first. -/
  calls : List (String × Status) := []

/-- What can happen next in a run. -/
inductive Move where
  /-- Time passes. -/
  | wait (nanos : Nat)
  /-- The run is called off. -/
  | cancel
  /-- The worker of a step goes on. -/
  | work (name : String)
  /-- The worker of a step hears that the run has been called off. -/
  | stop (name : String)
  /-- The walk takes the end of a worker. -/
  | settle (name : String)
  deriving DecidableEq, Repr

namespace Run

variable {μ σ : Type}

/-- The moment it is. -/
def now (r : Run μ σ) : Timestamp := Timestamp.epoch.addNanos r.clock

/-- The step of a name as it stands. -/
def step? (r : Run μ σ) (name : String) : Option (Step μ) := r.plan.graph.get? name

/-- The run with a step in the place of the one of its name. -/
def setStep (r : Run μ σ) (step : Step μ) : Run μ σ :=
  { r with plan := { r.plan with graph := r.plan.graph.setStep step } }

/-- The run with one more event, and whether the sink broke down over it. -/
def emit (r : Run μ σ) (event : Event) : Run μ σ × Bool :=
  let journal := r.journal.record r.now event
  ({ r with journal }, r.plan.sink.breaksAt journal)

/-- The run with the status of a step set, and whether the sink broke down over it. The status is
set before the sink is told; a status that the step has already is not told again. -/
def setStatus (r : Run μ σ) (name : String) (status : Status) : Run μ σ × Bool :=
  match r.step? name with
  | none => (r, false)
  | some step =>
    if step.status = status then (r, false)
    else (r.setStep { step with status, lastUpdated := r.now }).emit
      (.stepChanged name status r.now)

/-! ## Workers -/

/-- The run with the worker of a step in another phase. -/
def setPhase (r : Run μ σ) (name : String) (phase : Phase μ) : Run μ σ :=
  { r with workers := r.workers.modify name fun w => { w with phase } }

/-- The worker finds the run called off: its step is cancelled. -/
def interrupt (r : Run μ σ) (name : String) : Run μ σ :=
  (r.setStatus name (.cancelled (some "interrupted"))).1.setPhase name (.finished false)

/-- The worker waits for a slot. -/
def enqueue (r : Run μ σ) (name : String) : Run μ σ :=
  { r with slots := r.slots.enter name }.setPhase name .queued

/-- The worker decides how to go on: with a step that is done it ends; else it waits for the next
attempt, the less time the fewer there have been. -/
def decide (r : Run μ σ) (name : String) (attempt : Nat) : Run μ σ :=
  match r.step? name with
  | none => r.setPhase name (.finished false)
  | some step =>
    if step.status.isDone then r.setPhase name (.finished step.status.isOk)
    else if r.cancelled then r.interrupt name
    else
      let delay := r.plan.poll.baseDelay attempt
      r.setPhase name (if delay = 0 then .yielding else .sleeping (r.clock + delay))

/-- The worker takes a slot and calls the action with the status of the step. -/
def call (r : Run μ σ) (name : String) : Run μ σ :=
  match r.step? name with
  | none => r.setPhase name (.finished false)
  | some step =>
    { r with slots := r.slots.take name, calls := (name, step.status) :: r.calls }.setPhase name
      (.advancing (step.action.advance step.memo step.status))

/-- The call of the action has ended: the step gets the status that comes of it, the slot is given
back, and the worker goes on to its next decision unless the sink broke down. -/
def endCall (r : Run μ σ) (name : String) (outcome : Outcome) : Run μ σ :=
  let (r, broke) := r.setStatus name outcome.status
  { r with
    slots := r.slots.release
    workers := r.workers.modify name fun w =>
      if broke then { w with phase := .finished false }
      else ⟨w.attempt + 1, .deciding⟩ }

/-- The run with another memo for the action of a step. -/
def setMemo (r : Run μ σ) (name : String) (memo : μ) : Run μ σ :=
  match r.step? name with
  | none => r
  | some step => r.setStep { step with memo }

/-- The next thing that the call of an action does. -/
def advance (provider : Provider σ) (r : Run μ σ) (name : String) :
    Job (μ × Outcome) → Run μ σ
  | .done (memo, outcome) => (r.setMemo name memo).endCall name outcome
  | .ask request next =>
    match provider.respond r.world request with
    | (world, .answer result) => { r with world }.setPhase name (.advancing (next result))
    | (world, .crash message) => { r with world }.endCall name (.crash message)
  | .pause ms next => r.setPhase name (.pausing (r.clock + ms * 1000000) next)
  | .callOff next => { r with cancelled := true }.setPhase name (.advancing next)

/-- What the worker of a step does next, if it can do anything. -/
def work? (provider : Provider σ) (r : Run μ σ) (name : String) : Option (Run μ σ) :=
  match r.workers.get? name with
  | none => none
  | some worker =>
    match worker.phase with
    | .deciding => some (r.decide name worker.attempt)
    | .yielding => some (if r.cancelled then r.interrupt name else r.enqueue name)
    | .sleeping wake => if wake ≤ r.clock then some (r.enqueue name) else none
    | .queued => if r.slots.grants name then some (r.call name) else none
    | .advancing job => some (r.advance provider name job)
    | .pausing wake job =>
      if wake ≤ r.clock then some (r.setPhase name (.advancing job)) else none
    | .finished _ => none

/-- A worker that waits for a moment or for a slot hears that the run has been called off. -/
def stop? (r : Run μ σ) (name : String) : Option (Run μ σ) :=
  match r.workers.get? name with
  | none => none
  | some worker =>
    if r.cancelled && worker.phase.isListening then
      some ({ r with slots := r.slots.leave name }.interrupt name)
    else none

/-! ## The walk -/

/-- The run with a worker for every step under visit that has none. -/
def staff (r : Run μ σ) : Run μ σ :=
  { r with
    workers := r.walk.inFlight.foldl
      (fun workers name => if workers.contains name then workers else workers.insert name .fresh)
      r.workers }

/-- The walk takes the end of the worker of a step. -/
def settle? (r : Run μ σ) (name : String) : Option (Run μ σ) :=
  match r.workers.get? name with
  | some ⟨_, .finished ok⟩ =>
    some { r with workers := r.workers.erase name, walk := r.walk.settle name ok }.staff
  | _ => none

/-- Every step that could be visited has been. -/
def isOver (r : Run μ σ) : Bool := r.walk.isOver

/-! ## Moves -/

/-- The run after a move, if the move is possible. -/
def move? (provider : Provider σ) (r : Run μ σ) : Move → Option (Run μ σ)
  | .wait nanos => some { r with clock := r.clock + nanos }
  | .cancel => some { r with cancelled := true }
  | .work name => r.work? provider name
  | .stop name => r.stop? name
  | .settle name => r.settle? name

/-- One run comes from another by some moves. -/
inductive Steps (provider : Provider σ) : Run μ σ → Run μ σ → Prop where
  | refl (r : Run μ σ) : Steps provider r r
  | tail {r s t : Run μ σ} (move : Move) (before : Steps provider r s)
      (next : s.move? provider move = some t) : Steps provider r t

end Run

end Rollout

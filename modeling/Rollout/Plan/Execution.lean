import Rollout.Plan.Run

/-!
# Carrying a plan out

* `Plan.prepare`: a run that has not begun. `Run.launch`: the first workers are there.
* `Plan.begin`: the same with the plan announced. A plan can be carried out only once.
* `Run.close`: when the walk is over, the steps that are still in flight get their last status.
* `Run.finish`: the report, told and returned, unless the sink broke down.
* `Plan.Reaches` and `Plan.Ends`: a run that the plan can come to, and one at its very end. Which
  worker makes the next move, when time passes, and when the run is called off is left open, so what
  is true of all these runs is true whatever the schedule.
-/

namespace Rollout

/-- What came of a plan. -/
inductive PlanOutcome where
  /-- Every step is complete or skipped. -/
  | success
  /-- A step failed, or was never advanced because another one failed. -/
  | failed
  /-- The run was called off before its end, and no step failed. -/
  | interrupted
  deriving DecidableEq, Repr, Inhabited

/-- The name of an outcome. -/
def PlanOutcome.name : PlanOutcome → String
  | success => "success"
  | failed => "failed"
  | interrupted => "interrupted"

/-- The outcome of a plan whose steps stand in some way: a failure outranks an interruption. -/
def PlanOutcome.ofSteps (steps : List Snapshot) : PlanOutcome :=
  if steps.any (·.status.isFailed) then failed
  else if steps.any (·.status.isCancelled) then interrupted
  else success

/-- What is known of a plan that has been carried out. -/
structure PlanReport where
  /-- What came of it. -/
  outcome : PlanOutcome
  /-- Where every step stands, in the order of execution. -/
  steps : List Snapshot
  /-- What the walk did. -/
  walk : WalkReport String
  deriving DecidableEq, Inhabited

/-- The plan was a success. -/
def PlanReport.isSuccess (r : PlanReport) : Bool := r.outcome = .success

variable {μ σ : Type}

/-! ## The beginning -/

/-- A run of a plan before any worker is there. -/
def Plan.prepare (p : Plan μ) (walker : Walker) (world : σ) (cancelled : Bool) : Run μ σ where
  plan := p
  walk := { dag := p.graph.dag, cap := walker.cap }
  slots := .ofLimit walker.slots
  world := world
  cancelled := cancelled
  journal := { runId := p.id }

namespace Run

/-- The run with the first workers. -/
def launch (r : Run μ σ) : Run μ σ := { r with walk := r.walk.dispatch }.staff

/-- An event that is told outside of every worker. Nothing is told once the sink broke down. -/
def announce (r : Run μ σ) (event : Event) : Run μ σ :=
  if r.broken then r
  else
    let (r, broke) := r.emit event
    { r with broken := broke }

/-- The status of a step is set outside of every worker. -/
def assign (r : Run μ σ) (name : String) (status : Status) : Run μ σ :=
  if r.broken then r
  else
    let (r, broke) := r.setStatus name status
    { r with broken := broke }

end Run

/-- A run of a plan that has just begun, unless the plan has been carried out before. -/
def Plan.begin (p : Plan μ) (walker : Walker) (world : σ) (cancelled : Bool) :
    Except Error (Run μ σ) :=
  if p.executed then .error (.internal ("plan " ++ p.id ++ " has already been executed"))
  else
    let r := { p with executed := true }.prepare walker world cancelled
    let r := r.announce (.planStarted p.description p.keys)
    .ok (if r.broken then r else r.launch)

/-- One call of the action of a step, in one go and outside of every walk. -/
def Run.callOnce (provider : Provider σ) (r : Run μ σ) (name : String) : Run μ σ :=
  match r.step? name with
  | none => r
  | some step =>
    let (world, ended) := (step.action.advance step.memo step.status).perform provider r.world
    let r := { r with world, calls := (name, step.status) :: r.calls }
    match ended with
    | .ok (memo, outcome) => (r.setMemo name memo).assign name outcome.status
    | .error message => r.assign name (Outcome.crash message).status

/-! ## The end -/

namespace Run

/-- The step of a name has some property; without a step there is none. -/
def stepIs (r : Run μ σ) (name : String) (property : Status → Bool) : Bool :=
  match r.step? name with
  | some step => property step.status
  | none => false

/-- A step whose worker broke down before its status was done has failed. -/
def closeFailed (r : Run μ σ) (name : String) : Run μ σ :=
  if r.stepIs name (!·.isDone) then r.assign name (.failed (some "step worker aborted")) else r

/-- The steps that failed by themselves. -/
def failures (r : Run μ σ) : List String :=
  r.walk.report.failed.filter fun name => r.stepIs name (!·.isCancelled)

/-- A step depends on one of some others, directly or not. -/
def isBehind (r : Run μ σ) (others : List String) (name : String) : Bool :=
  match r.plan.graph.dag.allDependenciesOf name with
  | .ok needed => needed.any (· ∈ others)
  | .error _ => false

/-- A blocked step has failed if it is behind a failure, and also if nobody called the run off;
else it is cancelled. -/
def closeBlocked (failures : List String) (r : Run μ σ) (name : String) : Run μ σ :=
  r.assign name <|
    if r.isBehind failures name || !r.cancelled then .failed (some "dependency has failed")
    else .cancelled (some "interrupted")

/-- The run with a last status for every step in flight. -/
def close (r : Run μ σ) : Run μ σ :=
  let r := r.walk.report.failed.foldl closeFailed r
  r.walk.report.blocked.foldl (closeBlocked r.failures) r

/-- What is known of the run. -/
def report (r : Run μ σ) : PlanReport :=
  let steps := r.plan.snapshot
  ⟨.ofSteps steps, steps, r.walk.report⟩

/-- The run at its very end, with the report if the sink did not break down. -/
def finish (r : Run μ σ) : Run μ σ × Option PlanReport :=
  let r := r.close
  let report := r.report
  let r := r.announce (.planFinished report.outcome.name (UInt64.ofNat (r.clock / 1000000)))
  (r, if r.broken then none else some report)

end Run

/-! ## All the ways a plan can go -/

/-- The plan can come to a run, from a world of the provider. -/
def Plan.Reaches (p : Plan μ) (provider : Provider σ) (walker : Walker) (world : σ)
    (run : Run μ σ) : Prop :=
  ∃ cancelled start, p.begin walker world cancelled = .ok start ∧ Run.Steps provider start run

/-- The run waits for nothing any more: the walk is over and all workers are gone. -/
def Run.IsDone (r : Run μ σ) : Prop := r.isOver = true ∧ r.workers.isEmpty = true

/-- The plan can end with a run and a report. -/
def Plan.Ends (p : Plan μ) (provider : Provider σ) (walker : Walker) (world : σ)
    (run : Run μ σ) (report : PlanReport) : Prop :=
  ∃ last, p.Reaches provider walker world last ∧ last.IsDone ∧ last.finish = (run, some report)

end Rollout

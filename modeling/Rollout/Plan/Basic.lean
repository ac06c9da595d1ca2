import Rollout.Logging
import Rollout.Plan.Journal
import Rollout.Plan.PollPolicy
import Rollout.Plan.StepGraph

/-!
# Plans

A plan is a graph of steps with what is needed to carry it out once.

* `Plan.build`: the plan of some steps, perhaps reversed, perhaps narrowed to targets.
* `Plan.executionOrder`: the steps in an order in which they can be carried out.
* `Plan.outline`: the lines that show the order without carrying it out.
-/

namespace Rollout

/-- A graph of steps that can be carried out once. -/
structure Plan (μ : Type) where
  /-- The identity of the plan, which is also that of its run. -/
  id : String
  /-- What the plan is for. -/
  description : String
  /-- The steps. -/
  graph : StepGraph μ
  /-- How long to wait before a step is advanced again. -/
  poll : PollPolicy := .standard
  /-- Who is told the events. -/
  sink : Sink := .sound
  /-- The plan has been carried out, or is being carried out. -/
  executed : Bool := false

namespace Plan

variable {μ : Type}

/-- The names that a list of targets stands for, or the first target that fits no step. -/
def resolveTargets (steps : List (Step μ)) (targets : List String) : Except Error (List String) :=
  targets.foldlM (fun names target =>
    match steps.filter (·.isNamed target) with
    | [] => .error (.target target)
    | found => .ok (names ++ found.map (·.name))) []

/-- The plan of some steps. In reverse, what a step requires comes after it. Targets narrow the plan
to the steps they name and all that these then depend on. -/
def build (id description : String) (steps : List (Step μ)) (targets : Option (List String))
    (reverse : Bool) : Except Error (Plan μ) := do
  let graph ← StepGraph.ofSteps steps
  let graph := if reverse then graph.transpose else graph
  match targets with
  | none => pure { id, description, graph }
  | some targets =>
    let names ← resolveTargets graph.toList targets
    pure { id, description, graph := ← graph.restrict names }

/-- The names of the steps in the order of their insertion. -/
def keys (p : Plan μ) : List String := p.graph.dag.nodes

/-- The names of the steps, dependencies first. -/
def executionOrder (p : Plan μ) : Except Error (List String) :=
  match p.graph.dag.sort with
  | .ok names => .ok names.reverse
  | .error refusal => .error refusal.toError

/-- The order of execution as lines of a log, with a message at the end if there is one. -/
def outline (p : Plan μ) (level : LogLevel) (message : String) :
    Except Error (List String × List (LogLevel × String)) := do
  let order ← p.executionOrder
  let lines := order.zipIdx.map fun (name, i) =>
    "  - step: " ++ toString (i + 1) ++ ": target: \"" ++ name ++ "\""
  let title := "Plan \"" ++ p.description ++ "\":"
  let closing := if message.isEmpty then [] else [message]
  pure (order, (title :: lines ++ closing).map (level, ·))

/-- Where the steps stand, in the order of execution. -/
def snapshot (p : Plan μ) : List Snapshot :=
  let names := match p.executionOrder with
    | .ok names => names
    | .error _ => p.keys
  (p.graph.stepsOf names).map (·.snapshot)

end Plan

end Rollout

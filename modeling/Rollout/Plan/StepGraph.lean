import Rollout.Dag.Walk
import Rollout.Data.Table
import Rollout.Error
import Rollout.Plan.Step

/-!
# Graphs of steps

A graph of steps binds a step to every node of a dependency graph, by the name of the step.

* `StepGraph.ofSteps`: the graph of some steps, connected as they require.
* `StepGraph.transpose` and `StepGraph.restrict`: the same steps, or some of them, in another graph.
* `StepGraph.Built`: the graphs that come out of the operations.
* `StepGraph.toDict`: each step with what it depends on, in order.
-/

namespace Rollout

/-- Steps at the nodes of a graph. -/
structure StepGraph (μ : Type) where
  /-- The steps by name. -/
  steps : Table (Step μ)
  /-- What depends on what. -/
  dag : Dag String

/-- The error for a refusal of a graph of texts. -/
def Dag.Refusal.toError (refusal : Dag.Refusal String) : Error := .graph (refusal.report id)

namespace StepGraph

variable {μ : Type}

/-- The graph without steps. -/
def empty : StepGraph μ := ⟨.empty, .empty⟩

/-- The step of a name. -/
def get? (g : StepGraph μ) (name : String) : Option (Step μ) := g.steps.get? name

/-- The number of steps. -/
def size (g : StepGraph μ) : Nat := g.steps.size

/-- There is no step. -/
def isEmpty (g : StepGraph μ) : Bool := g.steps.isEmpty

/-- The steps of some names, those without a step left out. -/
def stepsOf (g : StepGraph μ) (names : List String) : List (Step μ) := names.filterMap g.get?

/-- The steps in the order of their insertion. -/
def toList (g : StepGraph μ) : List (Step μ) := g.stepsOf g.dag.nodes

/-- The graph with a new step. -/
def addStep (g : StepGraph μ) (step : Step μ) : Except Error (StepGraph μ) :=
  match g.dag.addNode step.name with
  | .ok dag => .ok ⟨g.steps.insert step.name step, dag⟩
  | .error refusal => .error refusal.toError

/-- The graph with a step, unless there is one of its name. -/
def ensureStep (g : StepGraph μ) (step : Step μ) : StepGraph μ :=
  if g.steps.contains step.name then g
  else ⟨g.steps.insert step.name step, g.dag.ensureNode step.name⟩

/-- The graph in which `step` depends on `needed` too. -/
def connect (g : StepGraph μ) (step needed : String) : Except Error (StepGraph μ) :=
  match g.dag.addEdge step needed with
  | .ok dag => .ok { g with dag }
  | .error refusal => .error (.dependency step needed (refusal.report id))

/-- The graph with a step connected to all it requires. -/
def connectAll (g : StepGraph μ) (step : Step μ) : Except Error (StepGraph μ) :=
  step.requires.foldlM (fun g needed => g.connect step.name needed) g

/-- The graph of some steps, all of which are there before any is connected. -/
def ofSteps (steps : List (Step μ)) : Except Error (StepGraph μ) := do
  steps.foldlM connectAll (← steps.foldlM addStep empty)

/-- The steps, dependents first. -/
def sort (g : StepGraph μ) : Except Error (List (Step μ)) :=
  match g.dag.sort with
  | .ok names => .ok (g.stepsOf names)
  | .error refusal => .error refusal.toError

/-- The steps that a step depends on directly. -/
def dependenciesOf (g : StepGraph μ) (name : String) : Except Error (List (Step μ)) :=
  match g.dag.dependenciesOf name with
  | .ok names => .ok (g.stepsOf names)
  | .error refusal => .error refusal.toError

/-- The same steps with every dependency turned round. -/
def transpose (g : StepGraph μ) : StepGraph μ := { g with dag := g.dag.transpose }

/-- Some steps and all they depend on. -/
def restrict (g : StepGraph μ) (names : List String) : Except Error (StepGraph μ) :=
  match g.dag.restrict names with
  | .ok dag =>
    .ok ⟨Table.ofList (dag.nodes.filterMap fun n => (g.get? n).map (n, ·)), dag⟩
  | .error refusal => .error refusal.toError

/-- The graph comes out of some operations. One that refuses leaves the graph it was given. -/
inductive Built : StepGraph μ → Prop where
  | empty : Built empty
  | ofSteps {steps : List (Step μ)} {g : StepGraph μ} (built : StepGraph.ofSteps steps = .ok g) :
      Built g
  | addStep {g h : StepGraph μ} {step : Step μ} (before : Built g)
      (built : g.addStep step = .ok h) : Built h
  | ensureStep {g : StepGraph μ} (step : Step μ) (before : Built g) : Built (g.ensureStep step)
  | connect {g h : StepGraph μ} {step needed : String} (before : Built g)
      (built : g.connect step needed = .ok h) : Built h
  | transpose {g : StepGraph μ} (before : Built g) : Built g.transpose
  | restrict {g h : StepGraph μ} {names : List String} (before : Built g)
      (built : g.restrict names = .ok h) : Built h

/-- Each step with what it depends on, both in order. -/
def toDict (g : StepGraph μ) : Table (List String) :=
  Table.ofList (g.dag.toDependencies.map fun (node, needed) =>
    (node, (Table.ofList (needed.map (·, ()))).keys))

/-- The graph with another step in the place of the one of its name. -/
def setStep (g : StepGraph μ) (step : Step μ) : StepGraph μ :=
  { g with steps := g.steps.modify step.name fun _ => step }

end StepGraph

end Rollout

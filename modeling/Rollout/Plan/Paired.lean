import Rollout.Dag.Indexed
import Rollout.Plan.StepGraph

/-!
# Graphs of steps kept in two containers

The steps stand in a table, and the graph of their names beside it. An operation edits the two one
after the other and in place, and asks one of them whether it may. A name that had come to stand in
one of them only would go unnoticed: where the partner of a name is missing, it is left out.

Steps are shared between graphs, so they are told apart by where they are, even if they are alike.

* `StepGraph.Shared`: a step and where it is.
* `StepGraph.Edit`, `StepGraph.perform`: the operations that change a graph of steps.
* `Paired.perform`: the same on the two containers, with the answer and what is left behind.
* `Paired.Reached`: what comes out of operations, refused ones included.
* `Paired.toList`, `Paired.sort?`, `Paired.visitAt`: steps that are looked up by names of nodes.
-/

namespace Rollout.StepGraph

variable {μ : Type}

/-- A step that several graphs may have in common. -/
structure Shared (μ : Type) where
  /-- Where it is. -/
  address : Nat
  /-- What is there. -/
  step : Step μ

/-- An operation that changes a graph of steps, or that puts another one in its place. -/
inductive Edit (σ : Type) where
  | addStep (step : σ)
  | ensureStep (step : σ)
  | connect (step needed : String)
  | transpose
  | restrict (names : List String)

namespace Edit

/-- An edit whose step is sent through `f`. -/
def map {σ τ : Type} (f : σ → τ) : Edit σ → Edit τ
  | addStep step => .addStep (f step)
  | ensureStep step => .ensureStep (f step)
  | connect step needed => .connect step needed
  | transpose => .transpose
  | restrict names => .restrict names

/-- The edits that make the graph of some steps, all of which are there before any is connected. -/
def ofSteps (steps : List (Shared μ)) : List (Edit (Shared μ)) :=
  steps.map addStep ++ steps.flatMap fun s => s.step.requires.map (connect s.step.name)

end Edit

/-- The graph of steps after an edit. -/
def perform (g : StepGraph μ) : Edit (Step μ) → Except Error (StepGraph μ)
  | .addStep step => g.addStep step
  | .ensureStep step => .ok (g.ensureStep step)
  | .connect step needed => g.connect step needed
  | .transpose => .ok g.transpose
  | .restrict names => g.restrict names

/-- Steps by name beside the graph of the names. -/
structure Paired (μ : Type) where
  /-- The steps by name. -/
  steps : Table (Shared μ)
  /-- What depends on what. -/
  dag : Dag.Indexed String

namespace Paired

/-- No step and no node. -/
def empty : Paired μ := ⟨.empty, .empty⟩

/-! ## Edits in place -/

/-- A new step. The graph is asked for a node of its name first, and may refuse it. -/
def addStep (g : Paired μ) (s : Shared μ) : Except Error Unit × Paired μ :=
  match g.dag.addNode s.step.name with
  | (.ok (), dag) => (.ok (), ⟨g.steps.insert s.step.name s, dag⟩)
  | (.error refusal, dag) => (.error refusal.toError, { g with dag })

/-- A step, unless there is one of its name. Here the table is asked. -/
def ensureStep (g : Paired μ) (s : Shared μ) : Paired μ :=
  if g.steps.contains s.step.name then g
  else ⟨g.steps.insert s.step.name s, g.dag.ensureNode s.step.name⟩

/-- A new connection of two nodes, whatever is in the table. -/
def connect? (g : Paired μ) (step needed : String) : Option (Except Error Unit × Paired μ) :=
  (g.dag.addEdge? step needed).map fun
    | (.ok (), dag) => (.ok (), { g with dag })
    | (.error refusal, dag) =>
      (.error (.dependency step needed (refusal.report id)), { g with dag })

/-- The same table beside the graph with every edge turned round. -/
def transpose? (g : Paired μ) : Option (Paired μ) :=
  g.dag.transpose?.map fun dag => { g with dag }

/-- The graph of some names and all they depend on, beside the steps that its nodes have. -/
def restrict? (g : Paired μ) (names : List String) : Option (Except Error (Paired μ)) :=
  (g.dag.restrict? names).map fun
    | .ok dag =>
      .ok ⟨Table.ofList (dag.order.filterMap fun n => (g.steps.get? n).map (n, ·)), dag⟩
    | .error refusal => .error refusal.toError

/-- What an edit answers, and what it leaves behind. -/
def perform (g : Paired μ) : Edit (Shared μ) → Option (Except Error Unit × Paired μ)
  | .addStep s => some (g.addStep s)
  | .ensureStep s => some (.ok (), g.ensureStep s)
  | .connect step needed => g.connect? step needed
  | .transpose => g.transpose?.map (.ok (), ·)
  | .restrict names =>
    (g.restrict? names).map fun
      | .ok h => (.ok (), h)
      | .error e => (.error e, g)

/-- What is left after some edits, up to the first that is refused. -/
def performAll? (g : Paired μ) : List (Edit (Shared μ)) → Option (Except Error (Paired μ))
  | [] => some (.ok g)
  | edit :: edits => do
    match ← g.perform edit with
    | (.ok (), h) => h.performAll? edits
    | (.error e, _) => pure (.error e)

/-- The graph of some steps. -/
def ofSteps? (steps : List (Shared μ)) : Option (Except Error (Paired μ)) :=
  empty.performAll? (Edit.ofSteps steps)

/-- The two containers after some operations, whether they were refused or not. -/
inductive Reached : Paired μ → Prop where
  | empty : Reached empty
  | ofSteps {steps : List (Shared μ)} {g : Paired μ} (built : ofSteps? steps = some (.ok g)) :
      Reached g
  | edit {g h : Paired μ} {edit : Edit (Shared μ)} {answer : Except Error Unit} (before : Reached g)
      (performed : g.perform edit = some (answer, h)) : Reached h

/-! ## Steps by the names of nodes -/

/-- The steps of some names. A name without a step is passed over. -/
def stepsOf (g : Paired μ) (names : List String) : List (Shared μ) := names.filterMap g.steps.get?

/-- The steps in the order of their insertion. -/
def toList (g : Paired μ) : List (Shared μ) := g.stepsOf g.dag.order

/-- The steps, dependents first. -/
def sort? (g : Paired μ) : Option (Except Error (List (Shared μ))) :=
  g.dag.sort?.map fun
    | .ok names => .ok (g.stepsOf names)
    | .error refusal => .error refusal.toError

/-- How the visit of a node ends: as that of its step does, or as is said for one without a step. -/
def visitAt (g : Paired μ) (visit : Shared μ → Bool) (missing : Bool) (name : String) : Bool :=
  match g.steps.get? name with
  | some s => visit s
  | none => missing

/-- The graph in one piece, as a walk goes over it. -/
def graph (g : Paired μ) : Dag String := ⟨g.dag.index⟩

end Paired

end Rollout.StepGraph

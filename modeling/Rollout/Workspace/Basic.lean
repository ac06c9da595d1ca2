import Rollout.Plan.Basic
import Rollout.Stack.Basic

/-!
# Workspaces

A workspace holds the stacks of a configuration, how their plans are carried out, and the lookups
and blueprints that render their templates.

* `Workspace.ofConfig`: the workspace of a configuration.
* `Workspace.fqnFor`: the name of a stack at the provider.
* `Workspace.plan`: one step for each stack, connected as the stacks require.
-/

namespace Rollout

/-- The stacks of a configuration with all that their templates need. -/
structure Workspace where
  /-- The namespace. -/
  scope : String
  /-- What parts the namespace from the name of a stack. -/
  delimiter : String
  /-- How plans are carried out. -/
  execution : ExecutionOptions
  /-- The stacks. -/
  members : List Stack
  /-- The lookups. -/
  lookups : LookupRegistry := .standard
  /-- The blueprints. -/
  blueprints : BlueprintRegistry := .standard
  /-- The variables of the environment. -/
  environment : Environment := {}

namespace Workspace

/-- The workspace of a configuration. -/
def ofConfig (c : Config) : Except Error Workspace := do
  let members ← c.definitions.mapM fun d => Stack.ofDefinition d c.scope c.delimiter
  pure { scope := c.scope, delimiter := c.delimiter, execution := c.execution, members }

/-- The workspace whose stacks of some names are updated even if they are locked. -/
def withForce (w : Workspace) (names : List String) : Workspace :=
  { w with
    members := w.members.map fun s => if s.name ∈ names then { s with force := true } else s }

/-- The stack of a name. -/
def stack? (w : Workspace) (name : String) : Option Stack := w.members.find? (·.name == name)

/-- The name at the provider of a stack, whether or not the workspace has it. -/
def fqnFor (w : Workspace) (name : String) : String :=
  match w.stack? name with
  | some s => s.fqn
  | none => qualifiedName w.scope w.delimiter name

/-- What lookups may consult. -/
def lookupContext (w : Workspace) : LookupContext where
  fqns := Table.ofList (w.members.map fun s => (s.name, s.fqn))
  environment := w.environment

/-- The template of a stack. -/
def resolve (w : Workspace) (s : Stack) : ExceptT Error Job RenderedTemplate :=
  s.resolve w.lookups w.blueprints w.lookupContext

/-- The step of a stack, which depends on the steps of the stacks it requires. -/
def stepOf {μ : Type} (w : Workspace) (action : Stack → Action μ) (memo : μ) (s : Stack) :
    Step μ where
  name := s.fqn
  shortName := s.name
  requires := s.requires.map w.fqnFor
  action := action s
  memo := memo

/-- The plan with one step for each stack. -/
def plan {μ : Type} (w : Workspace) (id description : String) (targets : Option (List String))
    (reverse : Bool) (action : Stack → Action μ) (memo : μ) : Except Error (Plan μ) := do
  let p ← Plan.build id description (w.members.map (w.stepOf action memo)) targets reverse
  pure { p with poll := w.execution.pollPolicy }

end Workspace

end Rollout

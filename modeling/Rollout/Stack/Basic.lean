import Rollout.Blueprint.Inline
import Rollout.Config.Basic
import Rollout.Lookup.Basic

/-!
# Stacks

A stack is a definition bound to a namespace.

* `qualifiedName`: the name of a stack at the provider.
* `Stack.ofDefinition`: the stack of a definition. It requires what the definition says, and also
  the stacks whose outputs its variables read.
* `Stack.isUpdateBlocked`: a locked stack is left alone unless it is forced.
* `Stack.resolve`: the template of a stack. The lookups in its variables are resolved, and its
  blueprint renders the result.
-/

namespace Rollout

/-- A name inside a namespace; without a namespace, the name itself. -/
def qualifiedName (scope delimiter name : String) : String :=
  if scope.isEmpty then name else scope ++ delimiter ++ name

/-- A stack inside a namespace. -/
structure Stack where
  /-- The name inside the configuration. -/
  name : String
  /-- The name at the provider. -/
  fqn : String
  /-- The blueprint that renders the template. -/
  blueprint : String
  /-- A template of the stack itself. -/
  templateBody : Option String
  /-- The names of the stacks it depends on, but never its own. -/
  requires : List String
  /-- The variables of the template, with lookups in them. -/
  vars : Table String
  /-- The tags of the stack. -/
  tags : Table String
  /-- The stack is built and destroyed. -/
  enabled : Bool
  /-- The stack is not updated. -/
  locked : Bool
  /-- The stack is updated even if it is locked. -/
  force : Bool := false
  deriving DecidableEq, Inhabited

namespace Stack

/-- Some names with the stacks whose outputs a text reads, each of these once. -/
def addOutputStacks (requires : List String) (value : String) : Except Error (List String) :=
  (outputStacks value).map fun names => names.foldl addOnce requires

/-- The names of the stacks that a definition depends on. -/
def requirements (d : StackDefinition) : Except Error (List String) :=
  (d.vars.values.foldlM addOutputStacks d.requires).map (·.filter (· ≠ d.name))

/-- The stack of a definition inside a namespace. -/
def ofDefinition (d : StackDefinition) (scope delimiter : String) : Except Error Stack := do
  let requires ← requirements d
  pure
    { name := d.name
      fqn := qualifiedName scope delimiter (d.stackName.getD d.name)
      blueprint := d.blueprint
      templateBody := d.templateBody
      requires
      vars := d.vars
      tags := d.tags
      enabled := d.enabled
      locked := d.locked }

/-- The stack is left alone once it exists. -/
def isUpdateBlocked (s : Stack) : Bool := s.locked && !s.force

end Stack

/-- The template of a stack. -/
def Stack.resolve (s : Stack) (lookups : LookupRegistry) (blueprints : BlueprintRegistry)
    (ctx : LookupContext) : ExceptT Error Job RenderedTemplate := do
  let vars ← lookups.resolveAll ctx s.vars
  ExceptT.mk (pure (blueprints.render s.blueprint ⟨s.name, s.templateBody, vars⟩))

end Rollout

import Rollout.Data.Table
import Rollout.Error
import Rollout.Hash.Blake3

/-!
# Blueprints

A blueprint turns the variables of a stack into a template. A rendered template carries the hash of
its text, by which a provider tells whether it has changed.

* `RenderedTemplate`: the text of a template with its hash.
* `Blueprint.Input`: what a blueprint may look at.
* `BlueprintRegistry`: blueprints by the names that stack definitions use. A name is taken once.
-/

namespace Rollout

/-- The text of a template with its hash. -/
structure RenderedTemplate where
  /-- The text. -/
  body : String
  /-- The hash of the text. -/
  hash : String
  deriving DecidableEq, Repr, Inhabited

/-- The rendered template of a text. -/
def RenderedTemplate.ofBody (body : String) : RenderedTemplate := ⟨body, Blake3.hash body⟩

/-- What a blueprint renders: the variables are resolved. -/
structure Blueprint.Input where
  /-- The stack to render for. -/
  stackName : String
  /-- The template of the stack itself, for blueprints that use one. -/
  templateBody : Option String
  /-- The variables by name. -/
  vars : Table String

/-- A way to render a template. -/
structure Blueprint where
  /-- The template for an input. -/
  render : Blueprint.Input → Except Error RenderedTemplate

/-- Blueprints by name. -/
structure BlueprintRegistry where
  /-- The blueprints. -/
  blueprints : Table Blueprint

namespace BlueprintRegistry

/-- The registry without blueprints. -/
def empty : BlueprintRegistry := ⟨.empty⟩

/-- The blueprint of a name. -/
def get? (r : BlueprintRegistry) (name : String) : Option Blueprint := r.blueprints.get? name

/-- The name is taken. -/
def contains (r : BlueprintRegistry) (name : String) : Bool := r.blueprints.contains name

/-- The names in order. -/
def names (r : BlueprintRegistry) : List String := r.blueprints.keys

/-- The registry with one more blueprint. -/
def register (r : BlueprintRegistry) (name : String) (blueprint : Blueprint) :
    Except Error BlueprintRegistry :=
  if r.contains name then .error (.blueprint name "already registered")
  else .ok ⟨r.blueprints.insert name blueprint⟩

/-- Renders with the blueprint of a name. -/
def render (r : BlueprintRegistry) (name : String) (input : Blueprint.Input) :
    Except Error RenderedTemplate :=
  match r.get? name with
  | some blueprint => blueprint.render input
  | none => .error (.blueprint name "no blueprint registered under this name")

end BlueprintRegistry

end Rollout

import Rollout.Config.Execution
import Rollout.Data.Table
import Rollout.Text.Basic

/-!
# Configurations

A configuration names the stacks of one namespace and says how their plans are carried out.

* `StackDefinition` and `Config`: a stack as it is configured, and all of them.
* `Config.validate`: the first fault of a configuration.
* `Config.complete`: a configuration as it was read, with the standard options under its own.
-/

namespace Rollout

/-- A stack as it is configured. -/
structure StackDefinition where
  /-- The name inside the configuration. -/
  name : String
  /-- The name at the provider, if it is another one. -/
  stackName : Option String := none
  /-- The blueprint that renders the template. -/
  blueprint : String := "inline"
  /-- A template of the stack itself. -/
  templateBody : Option String := none
  /-- The names of the stacks it depends on. -/
  requires : List String := []
  /-- The variables of the template. -/
  vars : Table String := .empty
  /-- The stack is built and destroyed. -/
  enabled : Bool := true
  /-- The stack is not updated. -/
  locked : Bool := false
  /-- The tags of the stack. -/
  tags : Table String := .empty
  deriving DecidableEq, Inhabited

/-- The stacks of one namespace. -/
structure Config where
  /-- The namespace. -/
  scope : String
  /-- What parts the namespace from the name of a stack. -/
  delimiter : String := "-"
  /-- How plans are carried out. -/
  execution : ExecutionOptions := .standard
  /-- The stacks. -/
  definitions : List StackDefinition := []
  deriving Inhabited

namespace Config

/-- The definition of a stack. -/
def stack? (c : Config) (name : String) : Option StackDefinition :=
  c.definitions.find? (·.name == name)

/-- What can be wrong with a configuration. -/
inductive Fault where
  /-- There is no namespace. -/
  | blankScope
  /-- A stack has no name. -/
  | blankName
  /-- Two stacks have the same name. -/
  | duplicateName (name : String)
  /-- A stack requires one that is not there. -/
  | unknownRequirement (name required : String)
  /-- The options are wrong. -/
  | execution (fault : ExecutionOptions.Fault)
  deriving DecidableEq, Repr, Inhabited

/-- The error for a fault. -/
def Fault.toError : Fault → Error
  | blankScope => .configuration "namespace must not be empty" (some "namespace")
  | blankName => .configuration "stack name must not be empty" (some "stacks[].name")
  | duplicateName name =>
    .configuration ("duplicate stack name '" ++ name ++ "'") (some "stacks[].name")
  | unknownRequirement name required =>
    .configuration ("stack '" ++ name ++ "' requires unknown stack '" ++ required ++ "'")
      (some ("stacks." ++ name ++ ".requires"))
  | execution fault => fault.toError

/-- The first name that is blank or has been used by the stacks before. -/
def nameFault? (used : List String) : List StackDefinition → Option Fault
  | [] => none
  | s :: rest =>
    if Text.isBlankText s.name then some .blankName
    else if s.name ∈ used then some (.duplicateName s.name)
    else nameFault? (s.name :: used) rest

/-- The first requirement of a stack that is no name of a stack. -/
def requirementFault? (names : List String) (s : StackDefinition) : Option Fault :=
  (s.requires.find? (· ∉ names)).map (.unknownRequirement s.name)

/-- The first fault of a configuration. -/
def fault? (c : Config) : Option Fault :=
  if Text.isBlankText c.scope then some .blankScope
  else
    nameFault? [] c.definitions <|>
      c.definitions.findSome? (requirementFault? (c.definitions.map (·.name))) <|>
      c.execution.fault?.map .execution

/-- The configuration has no fault. -/
def validate (c : Config) : Except Error Unit :=
  match c.fault? with
  | some fault => .error fault.toError
  | none => .ok ()

/-- A configuration as it was read, with the standard options under its own, if it has no fault. -/
def complete (c : Config) : Except Error Config := do
  let execution ← ExecutionOptions.standard.merge c.execution
  let c := { c with execution }
  c.validate
  pure c

end Config

end Rollout

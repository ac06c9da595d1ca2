import Rollout.Lookup.Token
import Rollout.Plan.Job

/-!
# Lookups

A lookup finds the text that stands for its argument, and may ask the provider for it.

* `LookupContext`: what lookups may consult besides the provider.
* `LookupRegistry`: lookups by kind. A kind is taken once.
* `LookupRegistry.resolve`: a text with every lookup replaced by what it finds. What has been found
  is not searched for lookups again.
* `Lookup.environment`: a variable of the environment, with a fallback behind two colons.
* `Lookup.output`: an output of a stack, read from the provider.
* `LookupRegistry.standard`: the registry that holds these two.
-/

namespace Rollout

/-- The variables of the environment. -/
structure Environment where
  /-- The names with their values. -/
  vars : List (String × String) := []
  deriving DecidableEq, Repr, Inhabited

/-- The value of a variable: what follows its name and an equals sign in a line of the environment,
so that a name may reach into the value of another variable. -/
def Environment.get? (e : Environment) (name : String) : Option String :=
  e.vars.findSome? fun (key, value) =>
    let line := (key ++ "=" ++ value).toList
    let start := (name ++ "=").toList
    if start.isPrefixOf line then some (String.ofList (line.drop start.length)) else none

/-- What lookups may consult. -/
structure LookupContext where
  /-- The names at the provider of the configured stacks. -/
  fqns : Table String := .empty
  /-- The variables of the environment. -/
  environment : Environment := {}

/-- The name of a stack at the provider. A name that is not configured is taken for one already. -/
def LookupContext.fqnFor (ctx : LookupContext) (stack : String) : String :=
  (ctx.fqns.get? stack).getD stack

/-- A way to find texts. -/
structure Lookup where
  /-- The text for an argument. -/
  handle : LookupContext → String → ExceptT Error Job String

/-- Lookups by kind. -/
structure LookupRegistry where
  /-- The lookups. -/
  lookups : Table Lookup

namespace LookupRegistry

/-- The registry without lookups. -/
def empty : LookupRegistry := ⟨.empty⟩

/-- The lookup of a kind. -/
def get? (r : LookupRegistry) (kind : String) : Option Lookup := r.lookups.get? kind

/-- The kind is taken. -/
def contains (r : LookupRegistry) (kind : String) : Bool := r.lookups.contains kind

/-- The kinds in order. -/
def kinds (r : LookupRegistry) : List String := r.lookups.keys

/-- The registry with one more lookup. -/
def register (r : LookupRegistry) (kind : String) (lookup : Lookup) :
    Except Error LookupRegistry :=
  if r.contains kind then .error (.lookup kind "a handler is already registered")
  else .ok ⟨r.lookups.insert kind lookup⟩

/-- The registry without a lookup of a kind. -/
def unregister (r : LookupRegistry) (kind : String) : LookupRegistry := ⟨r.lookups.erase kind⟩

/-- What a piece of a text stands for. -/
def resolveToken (r : LookupRegistry) (ctx : LookupContext) : Token → ExceptT Error Job String
  | .literal text => pure text
  | .lookup kind argument =>
    match r.get? kind with
    | some lookup => lookup.handle ctx argument
    | none => throw (.lookup kind "unknown lookup type")

/-- What some pieces stand for, one after the other. -/
def resolveTokens (r : LookupRegistry) (ctx : LookupContext) :
    List Token → ExceptT Error Job String
  | [] => pure ""
  | token :: rest => do
    let found ← r.resolveToken ctx token
    let others ← resolveTokens r ctx rest
    pure (found ++ others)

/-- A text with every lookup replaced by what it finds. -/
def resolve (r : LookupRegistry) (ctx : LookupContext) (value : String) :
    ExceptT Error Job String := do
  let tokens ← ExceptT.mk (pure (tokenize value))
  r.resolveTokens ctx tokens

/-- Texts by name with their lookups replaced, in the order of the names. -/
def resolveAll (r : LookupRegistry) (ctx : LookupContext) (vars : Table String) :
    ExceptT Error Job (Table String) := do
  let resolved ← vars.toList.mapM fun (name, value) => do
    let found ← r.resolve ctx value
    pure (name, found)
  pure (Table.ofList resolved)

end LookupRegistry

/-! ## The standard lookups -/

namespace Lookup

/-- The value of a variable of the environment, or else the fallback if there is one. -/
def environmentValue (environment : Environment) (argument : String) : Except Error String :=
  let (name, fallback) :=
    match Text.cutString? "::" argument with
    | some (name, fallback) => (Text.strip name, some fallback)
    | none => (Text.strip argument, none)
  if name.isEmpty then .error (.lookup "env" "missing variable name")
  else
    match environment.get? name, fallback with
    | some value, _ => .ok value
    | none, some fallback => .ok fallback
    | none, none => .error (.lookup "env" (name ++ ": environment variable not found"))

/-- Finds variables of the environment. -/
def environment : Lookup where
  handle ctx argument := ExceptT.mk (pure (environmentValue ctx.environment argument))

/-- Finds outputs of stacks. -/
def output : Lookup where
  handle ctx argument := do
    let (stack, key) ← ExceptT.mk (pure (splitOutput argument))
    let fqn := ctx.fqnFor stack
    let outputs : Table String ← Job.request (.outputs fqn)
    match outputs.get? key with
    | some value => pure value
    | none => throw (.lookup "output" ("stack " ++ fqn ++ " has no output '" ++ key ++ "'"))

end Lookup

/-- The registry of the standard lookups. -/
def LookupRegistry.standard : LookupRegistry :=
  ⟨(Table.empty.insert "env" .environment).insert "output" .output⟩

end Rollout

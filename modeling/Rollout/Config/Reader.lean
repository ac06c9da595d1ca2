import Rollout.Config.Basic
import Rollout.Json.Basic
import Rollout.Yaml.Value

/-!
# Reading configurations

Configurations are read from JSON values and from YAML texts. The two differ in what a node is worth
as a text or a number, and agree on everything else.

* `Dialect`: what the nodes of a kind of document are worth.
* `Dialect.config?`: the configuration of a node.
* `Config.ofJson` and `Config.ofYaml`: the same with errors; a YAML text is also completed.
-/

namespace Rollout

/-- What the nodes of a kind of document are worth. -/
structure Dialect (ν : Type) where
  /-- A text. -/
  text? : ν → Option String
  /-- A truth value. -/
  bool? : ν → Option Bool
  /-- A natural number of 64 bits. -/
  nat? : ν → Option Nat
  /-- A float. -/
  float? : ν → Option Float
  /-- Whether an optional node says that there is something. -/
  presence? : ν → Option Bool
  /-- The items of a list. -/
  items? : ν → Option (List ν)
  /-- The entries of a table. -/
  entries? : ν → Option (List (String × ν))
  /-- The fields of a record, by name. -/
  fields? : List String → ν → Option (String → Option ν)

namespace Dialect

variable {ν α : Type} (d : Dialect ν)

/-- A field that may be left out. -/
def orDefault (value? : ν → Option α) (fallback : α) : Option ν → Option α
  | none => some fallback
  | some node => value? node

/-- A field that may be left out and may say that there is nothing. -/
def optional (value? : ν → Option α) : Option ν → Option (Option α)
  | none => some none
  | some node => do
    if ← d.presence? node then (value? node).map some else pure none

/-- A list of texts. -/
def texts? (node : ν) : Option (List String) := do (← d.items? node).mapM d.text?

/-- A table of texts. -/
def table? (node : ν) : Option (Table String) := do
  let entries ← d.entries? node
  pure (Table.ofList (← entries.mapM fun (name, value) => (d.text? value).map (name, ·)))

/-- The options of a run. -/
def options? (node : ν) : Option ExecutionOptions := do
  let field ← d.fields? ["max_parallel", "poll_interval_ms", "max_poll_interval_ms",
    "backoff_multiplier", "jitter"] node
  pure
    { maxParallel := ← d.optional d.nat? (field "max_parallel")
      pollIntervalMs := ← d.optional d.nat? (field "poll_interval_ms")
      maxPollIntervalMs := ← d.optional d.nat? (field "max_poll_interval_ms")
      backoffMultiplier := ← d.optional d.float? (field "backoff_multiplier")
      jitter := ← d.optional d.bool? (field "jitter") }

/-- The definition of a stack. -/
def definition? (node : ν) : Option StackDefinition := do
  let field ← d.fields? ["name", "stack_name", "blueprint", "template_body", "requires",
    "variables", "enabled", "locked", "tags"] node
  pure
    { name := ← d.text? (← field "name")
      stackName := ← d.optional d.text? (field "stack_name")
      blueprint := ← orDefault d.text? "inline" (field "blueprint")
      templateBody := ← d.optional d.text? (field "template_body")
      requires := ← orDefault d.texts? [] (field "requires")
      vars := ← orDefault d.table? .empty (field "variables")
      enabled := ← orDefault d.bool? true (field "enabled")
      locked := ← orDefault d.bool? false (field "locked")
      tags := ← orDefault d.table? .empty (field "tags") }

/-- The definitions of some stacks. -/
def definitions? (node : ν) : Option (List StackDefinition) := do
  (← d.items? node).mapM d.definition?

/-- A configuration. -/
def config? (node : ν) : Option Config := do
  let field ← d.fields? ["namespace", "namespace_delimiter", "execution", "stacks"] node
  pure
    { scope := ← d.text? (← field "namespace")
      delimiter := ← orDefault d.text? "-" (field "namespace_delimiter")
      execution := ← orDefault d.options? .standard (field "execution")
      definitions := ← orDefault d.definitions? [] (field "stacks") }

end Dialect

/-! ## JSON -/

/-- The fields of a record: those of an object, or the items of an array in the order of the names,
of which the last may be missing. -/
def Json.fields? (names : List String) : Json → Option (String → Option Json)
  | .obj fields => some fun name => fields.lookup name
  | .arr items =>
    if items.length ≤ names.length then some fun name => (names.zip items).lookup name else none
  | _ => none

/-- The entries of an object. -/
def Json.entries? : Json → Option (List (String × Json))
  | .obj fields => some fields
  | _ => none

/-- JSON: nothing is taken for anything else than it is, but an integer for a float. -/
def Dialect.json : Dialect Json where
  text? := Json.text?
  bool? := Json.bool?
  nat? := Json.nat? UInt64.size
  float? := Json.float?
  presence? node := some !node.isNull
  items? := Json.items?
  entries? := Json.entries?
  fields? := Json.fields?

/-- YAML. -/
def Dialect.yaml : Dialect Yaml.Node where
  text? := Yaml.Node.text?
  bool? := Yaml.Node.bool?
  nat? := Yaml.Node.nat? UInt64.size
  float? := Yaml.Node.float?
  presence? := Yaml.Node.presence?
  items? := Yaml.Node.items?
  entries? := Yaml.Node.entries?
  fields? := Yaml.Node.fields?

/-- The value if there is one, and else the error for a document of some format. -/
def decoded (format : String) : Option α → Except Error α
  | some value => .ok value
  | none => .error (.serialization format "")

/-- Reads a configuration from JSON, as it is. -/
def Config.ofJson (value : Json) : Except Error Config :=
  decoded "json" (Dialect.json.config? value)

/-- Reads options from JSON. -/
def ExecutionOptions.ofJson (value : Json) : Except Error ExecutionOptions :=
  decoded "json" (Dialect.json.options? value)

/-- Reads a definition from JSON. -/
def StackDefinition.ofJson (value : Json) : Except Error StackDefinition :=
  decoded "json" (Dialect.json.definition? value)

/-- Reads a configuration from YAML and completes it. -/
def Config.ofYaml (text : String) : Except Error Config := do
  let c ← decoded "yaml" ((Yaml.Node.ofText? text).bind Dialect.yaml.config?)
  c.complete

end Rollout

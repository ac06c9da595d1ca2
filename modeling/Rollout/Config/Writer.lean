import Rollout.Stack.Basic

/-!
# Writing configurations

Configurations, and the stacks and templates that are made of them, as JSON objects with a field for
everything, `null` where something is left open. How a float is written is for the caller to say,
since no JSON number is infinite or undefined.

* `Config.toJson`, `StackDefinition.toJson`, `ExecutionOptions.toJson`: what is configured.
* `Stack.toJson` and `RenderedTemplate.toJson`: what is made of it.
-/

namespace Rollout

/-! ## What is configured -/

/-- A definition as an object. -/
def StackDefinition.toJson (d : StackDefinition) : Json :=
  .obj [("name", .str d.name), ("stack_name", Json.ofOption .str d.stackName),
    ("blueprint", .str d.blueprint), ("template_body", Json.ofOption .str d.templateBody),
    ("requires", Json.ofTexts d.requires), ("variables", Json.ofTextTable d.vars),
    ("enabled", .bool d.enabled), ("locked", .bool d.locked), ("tags", Json.ofTextTable d.tags)]

/-- Options as an object. -/
def ExecutionOptions.toJson (float : Float → Json) (o : ExecutionOptions) : Json :=
  .obj [("max_parallel", Json.ofOption .nat o.maxParallel),
    ("poll_interval_ms", Json.ofOption .nat o.pollIntervalMs),
    ("max_poll_interval_ms", Json.ofOption .nat o.maxPollIntervalMs),
    ("backoff_multiplier", Json.ofOption float o.backoffMultiplier),
    ("jitter", Json.ofOption .bool o.jitter)]

/-- A configuration as an object. -/
def Config.toJson (float : Float → Json) (c : Config) : Json :=
  .obj [("namespace", .str c.scope), ("namespace_delimiter", .str c.delimiter),
    ("execution", c.execution.toJson float),
    ("stacks", .arr (c.definitions.map StackDefinition.toJson))]

/-! ## What is made of it -/

/-- A stack as an object. -/
def Stack.toJson (s : Stack) : Json :=
  .obj [("name", .str s.name), ("fqn", .str s.fqn), ("blueprint", .str s.blueprint),
    ("template_body", Json.ofOption .str s.templateBody), ("requires", Json.ofTexts s.requires),
    ("variables", Json.ofTextTable s.vars), ("tags", Json.ofTextTable s.tags),
    ("enabled", .bool s.enabled), ("locked", .bool s.locked), ("force", .bool s.force)]

/-- A rendered template as an object. -/
def RenderedTemplate.toJson (t : RenderedTemplate) : Json :=
  .obj [("body", .str t.body), ("hash", .str t.hash)]

end Rollout

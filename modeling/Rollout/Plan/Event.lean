import Rollout.Plan.Status
import Rollout.Time.Reader

/-!
# Events

What happens in a run is told by events. Each is put in an envelope that says which run it belongs
to and where it stands in it.

* `Event` and `Envelope`: the three kinds of events, and an event with its envelope.
* `toJson` and `ofJson?`: their written forms. An event has its kind in the field `type`. Readers
  also take an array of the fields.
-/

namespace Rollout

/-- Something that happened in a run. -/
inductive Event where
  /-- A plan with some steps was started. -/
  | planStarted (description : String) (steps : List String)
  /-- A step got another status. -/
  | stepChanged (step : String) (status : Status) (lastUpdated : Timestamp)
  /-- The plan came to its end. -/
  | planFinished (outcome : String) (durationMs : UInt64)
  deriving DecidableEq, Inhabited

/-- An event and its place in a run. -/
structure Envelope where
  /-- The version of the form of events. -/
  version : UInt32
  /-- How many events of the run came before. -/
  sequence : UInt64
  /-- The run. -/
  runId : String
  /-- When the event was sent. -/
  timestamp : Timestamp
  /-- What happened. -/
  event : Event
  deriving DecidableEq, Inhabited

/-- A moment as a text. -/
def Timestamp.toJson (t : Timestamp) : Json := .str t.render

/-- Reads a moment from a text. -/
def Timestamp.ofJson? (value : Json) : Option Timestamp := value.text?.bind Timestamp.parse?

namespace Event

/-- An event as an object. -/
def toJson : Event → Json
  | planStarted description steps =>
    .obj [("type", .str "PlanStarted"), ("description", .str description),
      ("steps", Json.ofTexts steps)]
  | stepChanged step status lastUpdated =>
    .obj [("type", .str "StepStatusChanged"), ("step", .str step), ("status", status.toJson),
      ("last_updated", lastUpdated.toJson)]
  | planFinished outcome durationMs =>
    .obj [("type", .str "PlanFinished"), ("outcome", .str outcome),
      ("duration_ms", .nat durationMs.toNat)]

/-- The start of a plan by its fields. -/
def started? (description steps : Json) : Option Event := do
  pure (planStarted (← description.text?) (← (← steps.items?).mapM Json.text?))

/-- The change of a step by its fields. -/
def changed? (step status lastUpdated : Json) : Option Event := do
  pure (stepChanged (← step.text?) (← Status.ofJson? status) (← Timestamp.ofJson? lastUpdated))

/-- The end of a plan by its fields. -/
def finished? (outcome durationMs : Json) : Option Event := do
  pure (planFinished (← outcome.text?) (UInt64.ofNat (← durationMs.nat? UInt64.size)))

/-- Reads an event. -/
def ofJson? (value : Json) : Option Event :=
  match value with
  | .arr [.str "PlanStarted", description, steps] => started? description steps
  | .arr [.str "StepStatusChanged", step, status, lastUpdated] => changed? step status lastUpdated
  | .arr [.str "PlanFinished", outcome, durationMs] => finished? outcome durationMs
  | .obj _ =>
    match value.field? "type" with
    | some (.str "PlanStarted") => do
      started? (← value.field? "description") (← value.field? "steps")
    | some (.str "StepStatusChanged") => do
      changed? (← value.field? "step") (← value.field? "status") (← value.field? "last_updated")
    | some (.str "PlanFinished") => do
      finished? (← value.field? "outcome") (← value.field? "duration_ms")
    | _ => none
  | _ => none

/-- The status that an event gives to a step. -/
def statusOf? (step : String) : Event → Option Status
  | stepChanged name status _ => if name = step then some status else none
  | _ => none

end Event

namespace Envelope

/-- An envelope as an object. -/
def toJson (e : Envelope) : Json :=
  .obj [("version", .nat e.version.toNat), ("sequence", .nat e.sequence.toNat),
    ("run_id", .str e.runId), ("timestamp", e.timestamp.toJson), ("event", e.event.toJson)]

/-- An envelope by its fields. -/
def ofFields? (version sequence runId timestamp event : Json) : Option Envelope := do
  pure ⟨UInt32.ofNat (← version.nat? UInt32.size), UInt64.ofNat (← sequence.nat? UInt64.size),
    ← runId.text?, ← Timestamp.ofJson? timestamp, ← Event.ofJson? event⟩

/-- Reads an envelope. -/
def ofJson? (value : Json) : Option Envelope :=
  match value with
  | .arr [version, sequence, runId, timestamp, event] =>
    ofFields? version sequence runId timestamp event
  | .obj _ => do
    ofFields? (← value.field? "version") (← value.field? "sequence") (← value.field? "run_id")
      (← value.field? "timestamp") (← value.field? "event")
  | _ => none

end Envelope

end Rollout

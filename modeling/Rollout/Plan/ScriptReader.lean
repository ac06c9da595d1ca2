import Rollout.Json.Basic
import Rollout.Plan.Action
import Rollout.Plan.Step

/-!
# Scripted actions

A scripted action plays a list of scenes, one a call. It is the stand-in for a real action when a
plan is rehearsed without a provider. Its memo is the number of calls so far. Scripts and scripted
steps are read from JSON, where everything may be left out.

* `Script.action`: the action that plays a script.
* `Scene.ofJson`: a scene that crashes if it has a field `panic`, ends with an error if it has a
  field `error`, and else with the status that it names.
* `Script.ofJson`: a list of scenes, of which the last may be played again and again.
* `Step.scripted`: a step whose action plays a script.
-/

namespace Rollout

/-! ## Scripts -/

/-- How a scene ends. -/
inductive Ending where
  /-- With the status that the step has. -/
  | same
  /-- With an outcome of its own. -/
  | outcome (outcome : Outcome)
  deriving DecidableEq, Repr, Inhabited

/-- What a scripted action does in one call. -/
structure Scene where
  /-- The milliseconds to wait first, if any. -/
  delay : Option Nat := none
  /-- Whether the run is called off after that. -/
  callsOff : Bool := false
  /-- How the call ends. -/
  ending : Ending
  deriving DecidableEq, Repr, Inhabited

/-- The scenes of a scripted action. -/
structure Script where
  /-- The scenes, in the order of the calls. -/
  scenes : List Scene
  /-- Whether the last scene is played in all later calls too. -/
  repeats : Bool := false
  deriving DecidableEq, Repr, Inhabited

namespace Scene

/-- The last scene of every script: the step is complete. -/
def exhausted : Scene := { ending := .outcome (.settled (.complete (some "script exhausted"))) }

/-- The outcome of a scene for a step of some status. -/
def outcome (scene : Scene) (status : Status) : Outcome :=
  match scene.ending with
  | .same => .settled status
  | .outcome outcome => outcome

/-- A scene as a job. -/
def play (scene : Scene) (status : Status) : Job Outcome := do
  if let some ms := scene.delay then Job.pause ms (pure ())
  if scene.callsOff then Job.callOff (pure ())
  pure (scene.outcome status)

end Scene

namespace Script

/-- The scene of call number `n`, counted from zero. -/
def scene (s : Script) (n : Nat) : Scene :=
  (s.scenes[n]?).getD <| (if s.repeats then s.scenes.getLast? else none).getD .exhausted

/-- The action that plays a script. -/
def action (s : Script) : Action Nat where
  advance played status := do
    let outcome ← (s.scene played).play status
    pure (played + 1, outcome)

end Script

/-! ## Reading scripts -/

/-- How the scene of some fields ends. A crash comes before an error, and an error before a status.
A crash whose payload is no text leaves no message. -/
def Ending.ofJson (value : Json) : Ending :=
  match value.textField? "panic", value.textField? "error" with
  | some message, _ =>
    .outcome (.crash (if value.textField "payload" = "other" then none else some message))
  | none, some message => .outcome (.error ((value.textField? "context").getD message))
  | none, none =>
    if value.flagField "same" then .same
    else .outcome (.settled ((Status.ofJson? value).getD .pending))

/-- The scene of some fields. -/
def Scene.ofJson (value : Json) : Scene :=
  ⟨value.natField? "delay_ms", value.flagField "cancel", .ofJson value⟩

/-- The script of a list of scenes. -/
def Script.ofJson (value : Json) : Script :=
  let scenes := (value.items?).getD []
  ⟨scenes.map Scene.ofJson, (scenes.getLast?.map (·.flagField "repeat")).getD false⟩

/-- The step of some fields. -/
def Step.scripted (value : Json) : Step Nat where
  name := value.textField "name"
  shortName := (value.textField? "short_name").getD (value.textField "name")
  requires := value.textsField "requires"
  action := (Script.ofJson (value.field "script")).action
  memo := 0

end Rollout

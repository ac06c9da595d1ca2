import Rollout.Plan.Action
import Rollout.Text.Quoted
import Rollout.Time.Timestamp

/-!
# Steps

A step is one unit of work in a plan: who it is, what it needs, what moves it forward, and where it
stands.
-/

namespace Rollout

/-- A unit of work. -/
structure Step (μ : Type) where
  /-- The name, which no other step of the plan has. -/
  name : String
  /-- The name used for targeting. -/
  shortName : String
  /-- The names of the steps it depends on. -/
  requires : List String
  /-- What moves it forward. -/
  action : Action μ
  /-- What the action keeps between its calls. -/
  memo : μ
  /-- Where the step stands. -/
  status : Status := .pending
  /-- When the status was set. -/
  lastUpdated : Timestamp := .epoch

/-- Where a step stood at some moment. -/
structure Snapshot where
  /-- The name of the step. -/
  name : String
  /-- Where it stood. -/
  status : Status
  /-- Since when. -/
  lastUpdated : Timestamp
  deriving DecidableEq, Inhabited

namespace Step

variable {μ : Type}

/-- Where the step stands now. -/
def snapshot (s : Step μ) : Snapshot := ⟨s.name, s.status, s.lastUpdated⟩

/-- The step answers to a target. -/
def isNamed (s : Step μ) (target : String) : Bool := s.shortName == target || s.name == target

/-- The step as it is shown to someone who looks for a fault. -/
def describe (s : Step μ) : String :=
  "Step \x7b name: " ++ Text.quoted s.name ++ ", requires: [" ++
    ", ".intercalate (s.requires.map Text.quoted) ++ "], status: " ++ status ++ " \x7d"
where
  /-- The stage, with its reason if it can have one. -/
  status : String :=
    match s.status with
    | .pending => "Pending"
    | .submitted r => withReason "Submitted" r
    | .complete r => withReason "Complete" r
    | .skipped r => withReason "Skipped" r
    | .failed r => withReason "Failed" r
    | .cancelled r => withReason "Cancelled" r
  /-- A stage with its reason. -/
  withReason (stage : String) : Option String → String
    | none => stage ++ "(None)"
    | some r => stage ++ "(Some(" ++ Text.quoted r ++ "))"

end Step

end Rollout

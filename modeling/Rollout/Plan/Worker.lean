import Rollout.Plan.Action

/-!
# Workers and slots

A worker drives one step of a run. Between two moves it is in some phase of its loop: deciding
whether to go on, waiting before an attempt, waiting for a slot, inside a call of the action, or at
its end.

* `Phase` and `Worker`: where a worker is in its loop.
* `Slots`: the slots that workers share. A slot that comes free is set aside for the worker that has
  waited longest, who takes it when its turn comes.
-/

namespace Rollout

/-- Where a worker is in its loop. Moments are in nanoseconds. -/
inductive Phase (μ : Type) where
  /-- About to decide whether the step has to be advanced. -/
  | deciding
  /-- Letting others go first. -/
  | yielding
  /-- Waiting for the moment of the next attempt. -/
  | sleeping (wake : Nat)
  /-- Waiting for a slot. -/
  | queued
  /-- Inside a call of the action, with a slot. -/
  | advancing (job : Job (μ × Outcome))
  /-- Inside a call of the action that waits, with a slot. -/
  | pausing (wake : Nat) (job : Job (μ × Outcome))
  /-- At its end: the step ended well, or it did not or the worker broke down. -/
  | finished (ok : Bool)

namespace Phase

variable {μ : Type}

/-- The worker is inside a call of the action. -/
def isAdvancing : Phase μ → Bool
  | advancing _ | pausing _ _ => true
  | _ => false

/-- The worker is waiting and would hear of a cancellation. -/
def isListening : Phase μ → Bool
  | sleeping _ | queued => true
  | _ => false

/-- When the worker goes on by itself, if it waits for a moment. -/
def wake? : Phase μ → Option Nat
  | sleeping wake | pausing wake _ => some wake
  | _ => none

end Phase

/-- The driver of one step. -/
structure Worker (μ : Type) where
  /-- How often the step has been advanced. -/
  attempt : Nat
  /-- Where the worker is in its loop. -/
  phase : Phase μ

/-- A worker that has just begun. -/
def Worker.fresh {μ : Type} : Worker μ := ⟨0, .deciding⟩

/-- The slots that workers share. -/
structure Slots where
  /-- The number of slots no worker holds, if workers need one at all. -/
  free : Option Nat
  /-- The workers that wait for a slot, those first that came first. -/
  waiting : List String
  deriving DecidableEq, Repr, Inhabited

namespace Slots

/-- The slots for a limit, all of them free. -/
def ofLimit (limit : Option Nat) : Slots := ⟨limit, []⟩

/-- The waiting workers for whom a slot has been set aside: as many as there are slots. -/
def granted (s : Slots) : List String :=
  match s.free with
  | none => s.waiting
  | some free => s.waiting.take free

/-- The worker may take a slot. -/
def grants (s : Slots) (name : String) : Bool := s.granted.contains name

/-- A worker has begun to wait. -/
def enter (s : Slots) (name : String) : Slots := { s with waiting := s.waiting ++ [name] }

/-- A worker has given up waiting. -/
def leave (s : Slots) (name : String) : Slots := { s with waiting := s.waiting.erase name }

/-- A waiting worker has taken a slot. -/
def take (s : Slots) (name : String) : Slots :=
  { free := s.free.map (· - 1), waiting := s.waiting.erase name }

/-- A slot has been given back. -/
def release (s : Slots) : Slots := { s with free := s.free.map (· + 1) }

end Slots

end Rollout

import Rollout.Plan.Execution

/-!
# Rehearsals

A rehearsal plays a run on a clock of its own, without waiting. Workers go on in the order in which
they could, and each goes on until it has to wait, lets others go first, or ends. When nobody is
left, the walk takes the workers that ended, and those that let others go first go on, the last one
before the others. When there are none of these either, the clock jumps to the next moment for which
anyone waits.

* `Rehearsal.turn`: one move of the run, or what happens when nobody is left.
* `Rehearsal.play`: turns until the run is over, or until there have been too many.
* `Plan.rehearse`: a plan carried out from its beginning to its report.
-/

namespace Rollout

/-- A run being rehearsed. -/
structure Rehearsal (μ σ : Type) where
  /-- The run. -/
  run : Run μ σ
  /-- The workers that can go on, in the order of their turns. -/
  agenda : List String
  /-- The workers that have let others go first, the last one first. -/
  yielded : List String := []
  /-- The workers that have ended and that the walk has not taken yet, in the order of their ends. -/
  ended : List String := []
  /-- The workers that wait for a moment or for a slot, those first that came first. -/
  waiting : List String := []
  /-- When the run will be called off, if it has not been. -/
  cancelAt : Option Nat := none
  /-- The most calls of actions that went on at once. -/
  peak : Nat := 0

namespace Rehearsal

variable {μ σ : Type}

/-- The names of the workers whose phase has some property. -/
def workersIn (r : Run μ σ) (property : Phase μ → Bool) : List String :=
  (r.workers.toList.filter fun (_, w) => property w.phase).map (·.1)

/-- The number of calls of actions that go on. -/
def callsInProgress (r : Run μ σ) : Nat := (workersIn r Phase.isAdvancing).length

/-- A list with further names at its end, each once. -/
def addMissing (names further : List String) : List String :=
  further.foldl (fun names name => if name ∈ names then names else names ++ [name]) names

/-- A worker in some phase has to wait for something else before it can go on. -/
def isWaiting (r : Run μ σ) (name : String) : Phase μ → Bool
  | .sleeping wake | .pausing wake _ => r.clock < wake
  | .queued => !r.slots.grants name
  | _ => false

/-- The waiting workers whose phase has some property, those first that came first. -/
def waitingIn (r : Rehearsal μ σ) (property : Phase μ → Bool) : List String :=
  r.waiting.filter fun name => (r.run.workers.get? name).any (property ·.phase)

/-- The rehearsal with a worker where its phase puts it: it stays first unless it waits, lets others
go first, or has ended. -/
def place (r : Rehearsal μ σ) (name : String) : Rehearsal μ σ :=
  match r.run.workers.get? name with
  | none => r
  | some worker =>
    match worker.phase with
    | .yielding => { r with yielded := name :: r.yielded }
    | .finished _ => { r with ended := r.ended ++ [name] }
    | phase =>
      if isWaiting r.run name phase then { r with waiting := r.waiting ++ [name] }
      else { r with agenda := name :: r.agenda }

/-- The rehearsal after a move: the worker whose turn it was has its place, and workers that the
move has brought in or set free are added. -/
def follow (r : Rehearsal μ σ) (next : Run μ σ) (name : String) (rest : List String) :
    Rehearsal μ σ :=
  let moved := place { r with run := next, agenda := rest, waiting := r.waiting.erase name } name
  let fresh := next.walk.dispatched.drop r.run.walk.dispatched.length
  let heard :=
    if next.cancelled && !r.run.cancelled then moved.waitingIn Phase.isListening else []
  { moved with
    agenda := addMissing (addMissing (addMissing moved.agenda fresh) heard) next.slots.granted
    peak := max r.peak (callsInProgress next) }

/-- The rehearsal when everybody has had a turn: the walk takes the ends, then those go on that let
others go first, the last one first. -/
def comeRound (r : Rehearsal μ σ) : Rehearsal μ σ :=
  { r with agenda := r.ended ++ r.yielded, ended := [], yielded := [] }

/-- The next moment for which anyone waits. -/
def nextMoment? (r : Rehearsal μ σ) : Option Nat :=
  let wakes := r.run.workers.values.filterMap (·.phase.wake?)
  let calledOff := if r.run.cancelled then [] else r.cancelAt.toList
  (wakes ++ calledOff).min?

/-- The rehearsal at a later moment, with the workers that waited for it. -/
def jump (r : Rehearsal μ σ) (moment : Nat) : Rehearsal μ σ :=
  let clock := max r.run.clock moment
  let awake := r.waitingIn fun phase => phase.wake?.any (· ≤ clock)
  if !r.run.cancelled && r.cancelAt.any (· ≤ clock) then
    { r with
      run := { r.run with clock, cancelled := true }
      agenda := addMissing awake (r.waitingIn Phase.isListening) }
  else { r with run := { r.run with clock }, agenda := awake }

/-- The move that a worker makes when its turn comes. -/
def moveOf (r : Run μ σ) (name : String) : Move :=
  match r.workers.get? name with
  | some ⟨_, .finished _⟩ => .settle name
  | some ⟨_, phase⟩ => if r.cancelled && phase.isListening then .stop name else .work name
  | none => .work name

/-- The rehearsal one turn later, if anything can happen at all. -/
def turn (provider : Provider σ) (r : Rehearsal μ σ) : Option (Rehearsal μ σ) :=
  match r.agenda with
  | name :: rest =>
    match r.run.move? provider (moveOf r.run name) with
    | some next => some (r.follow next name rest)
    | none => some { r with agenda := rest }
  | [] =>
    if r.ended.isEmpty && r.yielded.isEmpty then r.nextMoment?.map r.jump else some r.comeRound

/-- The longest rehearsal, in nanoseconds of its clock. -/
def longest : Nat := 1000000000 * 1000000

/-- The rehearsal when its run is over; none if that takes too many turns or too long. -/
def play (provider : Provider σ) : Nat → Rehearsal μ σ → Option (Rehearsal μ σ)
  | 0, _ => none
  | turns + 1, r =>
    if r.run.isOver && r.run.workers.isEmpty then some r
    else if longest < r.run.clock then none
    else
      match r.turn provider with
      | some next => play provider turns next
      | none => none

/-- The most turns of a rehearsal. -/
def mostTurns : Nat := 100000000

/-- A rehearsal of a run that has been launched. -/
def ofRun (run : Run μ σ) (cancelAt : Option Nat) : Rehearsal μ σ :=
  { run, cancelAt, agenda := run.walk.inFlight }

end Rehearsal

/-- A plan carried out: the run at its end, the report, and the most calls at once. There is none if
the rehearsal takes too long. -/
structure Performance (μ σ : Type) where
  /-- The run at its end. -/
  run : Run μ σ
  /-- The report, unless the sink broke down. -/
  report : Option PlanReport
  /-- The most calls of actions that went on at once. -/
  peak : Nat

/-- Carries a plan out on the clock of a rehearsal. -/
def Plan.rehearse {μ σ : Type} (p : Plan μ) (provider : Provider σ) (walker : Walker) (world : σ)
    (cancelled : Bool) (cancelAt : Option Nat) : Except Error (Option (Performance μ σ)) := do
  let run ← p.begin walker world cancelled
  pure <| (Rehearsal.play provider Rehearsal.mostTurns (.ofRun run cancelAt)).map fun r =>
    let (run, report) := r.run.finish
    { run, report, peak := r.peak }

end Rollout

import Rollout.Provider.Basic

/-!
# A simulated provider

The simulator keeps stacks in memory. An operation is in progress for some calls of `describe`
before it settles, each of which takes one transition off the queue of the stack.

* `Simulator.fail`: makes the next operation of a kind on a stack end badly.
* `Simulator.describe`, `create`, `update`, `destroy`, `outputsOf`: what requests do.
* `Provider.simulated`: the simulator as a provider, which also keeps a log of the calls.
* `Simulator.Event` and `Simulator.after`: what can happen to a simulator, and the simulator after
  some events.
-/

namespace Rollout

/-- A simulated stack. -/
structure Simulator.Record where
  /-- The stack as it is reported. -/
  stack : Deployment
  /-- The states still to be reported, one a call. -/
  transitions : List StackState := []
  deriving DecidableEq, Inhabited

/-- The memory of a simulated provider. -/
structure Simulator where
  /-- The stacks by name. -/
  records : Table Simulator.Record := .empty
  /-- The outputs that stacks get when a create or an update is complete. -/
  outputs : Table (Table String) := .empty
  /-- The operations that will end badly, by stack. -/
  failures : List (String × Operation) := []
  /-- How many calls an operation takes to settle. -/
  ticks : Nat := 1
  /-- An operation takes at least one call to settle. -/
  ticks_pos : 0 < ticks := by decide
  /-- The calls so far, the last one first. -/
  calls : List (Operation × String) := []

namespace Simulator

/-! ## Setting the scene -/

/-- The simulator whose operations take `n` calls to settle, but at least one. -/
def withTicks (s : Simulator) (n : Nat) : Simulator :=
  { s with ticks := max n 1, ticks_pos := by omega }

/-- The simulator that gives outputs to a stack, at once if the stack is there. -/
def withOutputs (s : Simulator) (fqn : String) (outputs : Table String) : Simulator :=
  { s with
    records := s.records.modify fqn fun r => { r with stack := { r.stack with outputs } }
    outputs := s.outputs.insert fqn outputs }

/-- The next operation of a kind on a stack will end badly. -/
def fail (s : Simulator) (fqn : String) (operation : Operation) : Simulator :=
  if (fqn, operation) ∈ s.failures then s
  else { s with failures := (fqn, operation) :: s.failures }

/-- A stack that is there already. -/
def insert (s : Simulator) (stack : Deployment) : Simulator :=
  { s with records := s.records.insert stack.fqn { stack } }

/-! ## Looking without asking -/

/-- The state of a stack. -/
def stateOf? (s : Simulator) (fqn : String) : Option StackState :=
  (s.records.get? fqn).map (·.stack.state)

/-- The stack is there. -/
def contains (s : Simulator) (fqn : String) : Bool := s.records.contains fqn

/-- The stacks that operations of a kind were asked for, in order. -/
def callsFor (s : Simulator) (operation : Operation) : List String :=
  (s.calls.reverse.filter (·.1 = operation)).map (·.2)

/-! ## Requests -/

/-- A call is logged. -/
def log (s : Simulator) (operation : Operation) (fqn : String) : Simulator :=
  { s with calls := (operation, fqn) :: s.calls }

/-- Whether the operation will end badly; it is not marked for that any longer. -/
def takeFailure (s : Simulator) (fqn : String) (operation : Operation) : Bool × Simulator :=
  ((fqn, operation) ∈ s.failures,
    { s with failures := s.failures.filter (· ≠ (fqn, operation)) })

/-- The states to be reported of an operation: in progress for all calls but the last, and then
those in which it settles. -/
def schedule (s : Simulator) (inProgress : StackState) (settled : List StackState) :
    List StackState :=
  List.replicate (s.ticks - 1) inProgress ++ settled

/-- A record after its next transition. A stack whose create or update is complete gets its
outputs. -/
def tick (outputs : Option (Table String)) (r : Record) : Record :=
  match r.transitions with
  | [] => r
  | next :: rest =>
    { stack :=
        { r.stack with
          state := next
          outputs := if next.isComplete then outputs.getD r.stack.outputs else r.stack.outputs }
      transitions := rest }

/-- A stack is described, which takes it one transition further. A stack that is deleted is gone. -/
def describe (s : Simulator) (fqn : String) : Simulator × Option Deployment :=
  match s.records.get? fqn with
  | none => (s, none)
  | some r =>
    let r := tick (s.outputs.get? fqn) r
    if r.stack.state.isDeleted then ({ s with records := s.records.erase fqn }, none)
    else ({ s with records := s.records.insert fqn r }, some r.stack)

/-- A stack is created. -/
def create (s : Simulator) (submission : Submission) : Simulator × Except Error Unit :=
  let fqn := submission.fqn
  if s.contains fqn then (s, .error (.provider "create" fqn "stack already exists"))
  else
    let (fails, s) := s.takeFailure fqn .create
    let settled := if fails then [.rollbackInProgress, .rollbackComplete] else [.createComplete]
    let stack : Deployment :=
      ⟨fqn, .createInProgress, some submission.template.hash, .empty⟩
    ({ s with
        records := s.records.insert fqn ⟨stack, s.schedule .createInProgress settled⟩ }, .ok ())

/-- A stack is updated, unless its template is the one already deployed. -/
def update (s : Simulator) (submission : Submission) : Simulator × Except Error UpdateOutcome :=
  let fqn := submission.fqn
  let (fails, s) := s.takeFailure fqn .update
  match s.records.get? fqn with
  | none => (s, .error (.provider "update" fqn "stack does not exist"))
  | some r =>
    if r.stack.state.isInProgress then
      (s, .error (.provider "update" fqn ("stack is busy (" ++ r.stack.state.name ++ ")")))
    else if r.stack.templateHash = some submission.template.hash then (s, .ok .noChange)
    else
      let settled :=
        if fails then [.updateRollbackInProgress, .updateRollbackComplete] else [.updateComplete]
      let stack :=
        { r.stack with
          state := .updateInProgress
          templateHash := some submission.template.hash }
      ({ s with
          records := s.records.insert fqn ⟨stack, s.schedule .updateInProgress settled⟩ },
        .ok .submitted)

/-- A stack is destroyed. -/
def destroy (s : Simulator) (fqn : String) : Simulator × Except Error Unit :=
  let (fails, s) := s.takeFailure fqn .destroy
  match s.records.get? fqn with
  | none => (s, .error (.provider "destroy" fqn "stack does not exist"))
  | some r =>
    let settled := if fails then .deleteFailed else .deleteComplete
    let stack := { r.stack with state := .deleteInProgress }
    ({ s with
        records := s.records.insert fqn ⟨stack, s.schedule .deleteInProgress [settled]⟩ }, .ok ())

/-- The outputs of a stack. -/
def outputsOf (s : Simulator) (fqn : String) : Except Error (Table String) :=
  match s.records.get? fqn with
  | some r => .ok r.stack.outputs
  | none => .error (.provider "get_outputs" fqn "stack does not exist")

/-- What a request does, and its answer. -/
def answer (s : Simulator) : (r : Request) → Simulator × Except Error r.Answer
  | .describe fqn =>
    let (s, described) := s.describe fqn
    (s, .ok described)
  | .create submission => s.create submission
  | .update submission => s.update submission
  | .destroy fqn => s.destroy fqn
  | .outputs fqn => (s, s.outputsOf fqn)

end Simulator

/-- The simulator as a provider. -/
def Provider.simulated : Provider Simulator where
  respond s r :=
    let (s, result) := (s.log r.operation r.fqn).answer r
    (s, .answer result)

/-! ## Histories -/

namespace Simulator

/-- What can happen to a simulator. -/
inductive Event where
  /-- Operations take another number of calls to settle. -/
  | ticks (n : Nat)
  /-- A stack is given outputs. -/
  | outputs (fqn : String) (outputs : Table String)
  /-- The next operation of a kind on a stack will end badly. -/
  | fail (fqn : String) (operation : Operation)
  /-- A stack is there already. -/
  | insert (stack : Deployment)
  /-- A request comes in. -/
  | request (r : Request)

/-- The simulator after a request. -/
def request (s : Simulator) (r : Request) : Simulator := (Provider.simulated.respond s r).1

/-- The simulator after one more event. -/
def next (s : Simulator) : Event → Simulator
  | .ticks n => s.withTicks n
  | .outputs fqn outputs => s.withOutputs fqn outputs
  | .fail fqn operation => s.fail fqn operation
  | .insert stack => s.insert stack
  | .request r => s.request r

/-- The simulator after some events. -/
def after (s : Simulator) (events : List Event) : Simulator := events.foldl next s

end Simulator

end Rollout

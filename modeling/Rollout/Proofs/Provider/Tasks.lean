import Rollout.Provider.Simulator

/-!
# What a request does to a stack

Whether a stack is there, and in which state, decides what becomes of a request to create, update or
destroy it.

* `Task`: the operations that take time, with the states that a stack runs through.
* `Simulator.agenda`: the states to be reported of an operation that starts.
* `Simulator.create_of_none`, `update_of_other`, `destroy_of_some`: requests that start one.
  `Simulator.create_of_some`, `update_of_none` and the like: the others.
* `Simulator.Updated`: all that can become of an update.
-/

namespace Rollout

/-- The operations that take time to settle. -/
inductive Task where
  | create
  | update
  | destroy
  deriving DecidableEq

namespace Task

/-- The kind of the requests that start it. -/
def operation : Task → Operation
  | create => .create
  | update => .update
  | destroy => .destroy

/-- The state of a stack while the operation is in progress. -/
def progress : Task → StackState
  | create => .createInProgress
  | update => .updateInProgress
  | destroy => .deleteInProgress

/-- The states in which the operation settles, well or badly. -/
def settled : Task → Bool → List StackState
  | create, badly => if badly then [.rollbackInProgress, .rollbackComplete] else [.createComplete]
  | update, badly =>
    if badly then [.updateRollbackInProgress, .updateRollbackComplete] else [.updateComplete]
  | destroy, badly => [if badly then .deleteFailed else .deleteComplete]

end Task

namespace Simulator

/-- An operation on a stack will end badly. -/
def isMarked (s : Simulator) (fqn : String) (operation : Operation) : Bool :=
  (s.takeFailure fqn operation).1

/-- The states to be reported of an operation that starts. -/
def agenda (s : Simulator) (fqn : String) (task : Task) : List StackState :=
  s.schedule task.progress (task.settled (s.isMarked fqn task.operation))

variable {s : Simulator} {submission : Submission} {r : Record} {fqn : String}

theorem create_of_some (h : s.records.get? submission.fqn = some r) :
    s.create submission =
      (s, .error (.provider "create" submission.fqn "stack already exists")) := by
  have hthere : s.contains submission.fqn = true := by
    rw [contains, Table.contains, h]
    rfl
  rw [create, if_pos hthere]

theorem create_of_none (h : s.records.get? submission.fqn = none) :
    s.create submission =
      ({ (s.takeFailure submission.fqn .create).2 with
          records := s.records.insert submission.fqn
            ⟨⟨submission.fqn, .createInProgress, some submission.template.hash, .empty⟩,
              s.agenda submission.fqn .create⟩ }, .ok ()) := by
  have hthere : s.contains submission.fqn = false := by
    rw [contains, Table.contains, h]
    rfl
  rw [create, hthere, if_neg Bool.false_ne_true]
  rfl

theorem update_of_none (h : s.records.get? submission.fqn = none) :
    s.update submission = ((s.takeFailure submission.fqn .update).2,
      .error (.provider "update" submission.fqn "stack does not exist")) := by
  simp only [update, takeFailure, h]

theorem update_of_busy (h : s.records.get? submission.fqn = some r)
    (hbusy : r.stack.state.isInProgress = true) :
    s.update submission = ((s.takeFailure submission.fqn .update).2,
      .error (.provider "update" submission.fqn
        ("stack is busy (" ++ r.stack.state.name ++ ")"))) := by
  simp only [update, takeFailure, h, hbusy, if_true]

theorem update_of_same (h : s.records.get? submission.fqn = some r)
    (hfree : r.stack.state.isInProgress = false)
    (hhash : r.stack.templateHash = some submission.template.hash) :
    s.update submission = ((s.takeFailure submission.fqn .update).2, .ok .noChange) := by
  simp only [update, takeFailure, h, hfree, hhash, Bool.false_eq_true, if_false, if_true]

theorem update_of_other (h : s.records.get? submission.fqn = some r)
    (hfree : r.stack.state.isInProgress = false)
    (hhash : r.stack.templateHash ≠ some submission.template.hash) :
    s.update submission =
      ({ (s.takeFailure submission.fqn .update).2 with
          records := s.records.insert submission.fqn
            ⟨{ r.stack with
                state := .updateInProgress
                templateHash := some submission.template.hash },
              s.agenda submission.fqn .update⟩ }, .ok .submitted) := by
  simp only [update, takeFailure, h, hfree, hhash, Bool.false_eq_true, if_false]
  rfl

/-- What becomes of an update. -/
inductive Updated (s : Simulator) (submission : Submission) :
    Simulator × Except Error UpdateOutcome → Prop where
  | absent (missing : s.records.get? submission.fqn = none) :
    Updated s submission ((s.takeFailure submission.fqn .update).2,
      .error (.provider "update" submission.fqn "stack does not exist"))
  | busy {r : Record} (found : s.records.get? submission.fqn = some r)
      (busy : r.stack.state.isInProgress = true) :
    Updated s submission ((s.takeFailure submission.fqn .update).2,
      .error (.provider "update" submission.fqn
        ("stack is busy (" ++ r.stack.state.name ++ ")")))
  | same {r : Record} (found : s.records.get? submission.fqn = some r)
      (free : r.stack.state.isInProgress = false)
      (hash : r.stack.templateHash = some submission.template.hash) :
    Updated s submission ((s.takeFailure submission.fqn .update).2, .ok .noChange)
  | starts {r : Record} (found : s.records.get? submission.fqn = some r)
      (free : r.stack.state.isInProgress = false)
      (hash : r.stack.templateHash ≠ some submission.template.hash) :
    Updated s submission
      ({ (s.takeFailure submission.fqn .update).2 with
          records := s.records.insert submission.fqn
            ⟨{ r.stack with
                state := .updateInProgress
                templateHash := some submission.template.hash },
              s.agenda submission.fqn .update⟩ }, .ok .submitted)

theorem updated_update (s : Simulator) (submission : Submission) :
    Updated s submission (s.update submission) := by
  cases hr : s.records.get? submission.fqn with
  | none => exact update_of_none hr ▸ .absent hr
  | some r =>
    cases hbusy : r.stack.state.isInProgress with
    | true => exact update_of_busy hr hbusy ▸ .busy hr hbusy
    | false =>
      by_cases hhash : r.stack.templateHash = some submission.template.hash
      · exact update_of_same hr hbusy hhash ▸ .same hr hbusy hhash
      · exact update_of_other hr hbusy hhash ▸ .starts hr hbusy hhash

theorem destroy_of_none (h : s.records.get? fqn = none) :
    s.destroy fqn = ((s.takeFailure fqn .destroy).2,
      .error (.provider "destroy" fqn "stack does not exist")) := by
  simp only [destroy, takeFailure, h]

theorem destroy_of_some (h : s.records.get? fqn = some r) :
    s.destroy fqn =
      ({ (s.takeFailure fqn .destroy).2 with
          records := s.records.insert fqn
            ⟨{ r.stack with state := .deleteInProgress }, s.agenda fqn .destroy⟩ }, .ok ()) := by
  simp only [destroy, takeFailure, h]
  rfl

end Simulator

end Rollout

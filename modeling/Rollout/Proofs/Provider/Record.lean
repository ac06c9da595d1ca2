import Rollout.Proofs.Provider.Locality
import Rollout.Proofs.Provider.Tasks
import Rollout.Provider.Simulator

/-!
# The record of a stack

What requests make of the record of the stack that they are about, and which records there are after
all that can have happened.

* `Simulator.Described`: how a stack is described.
* `Simulator.respond_describe`, `respond_create`, `respond_update`: requests about a stack.
* `Simulator.ComesOf` and `Simulator.comesOf_next`: what a record can have been before an event.
* `Simulator.courses` and `Simulator.Lasting`: what is true of the states that an operation runs
  through, and stays true while they are reported.
* `Simulator.Lasting.after`: it is true of all records after some events.
* `Simulator.lasting_orderly`: all states but the last one that is to be reported are in progress.
  `Simulator.lasting_usual`: of the failures only that of a deletion is ever reported.
-/

namespace Rollout.Simulator

/-! ## Requests about a stack -/

theorem tick_of_nil {r : Record} (h : r.transitions = []) (outputs : Option (Table String)) :
    tick outputs r = r := by
  rw [tick, h]

/-- A transition leaves the hash of the template. -/
theorem templateHash_tick (outputs : Option (Table String)) (r : Record) :
    (tick outputs r).stack.templateHash = r.stack.templateHash := by
  rw [tick]
  split <;> rfl

/-- How a stack is described: as it is after its next transition, unless it is gone then. -/
inductive Described (fqn : String) (before after : Simulator) : Option Deployment → Prop where
  | gone (absent : ∀ old, before.records.get? fqn = some old →
        (tick (before.outputs.get? fqn) old).stack.state.isDeleted = true)
      (record : after.records.get? fqn = none) : Described fqn before after none
  | there {old : Record} (found : before.records.get? fqn = some old)
      (present : (tick (before.outputs.get? fqn) old).stack.state.isDeleted = false)
      (record : after.records.get? fqn = some (tick (before.outputs.get? fqn) old)) :
      Described fqn before after (some (tick (before.outputs.get? fqn) old).stack)

/-- Where a stack is there after it was described, it is the old one after a transition. -/
theorem Described.exists_tick {fqn : String} {before after : Simulator}
    {described : Option Deployment} (h : Described fqn before after described) {r : Record}
    (hr : after.records.get? fqn = some r) :
    ∃ outputs old, before.records.get? fqn = some old ∧ r = tick outputs old := by
  cases h with
  | gone _ record =>
    rw [record] at hr
    cases hr
  | there found _ record => exact ⟨_, _, found, Option.some.inj (hr.symm.trans record)⟩

/-- A stack that has nothing left to report is described as it is, and stays so. -/
theorem Described.of_rest {fqn : String} {before after : Simulator} {described : Option Deployment}
    (h : Described fqn before after described) {r : Record}
    (hr : before.records.get? fqn = some r) (hrest : r.transitions = [])
    (hpresent : r.stack.state.isDeleted = false) :
    described = some r.stack ∧ after.records.get? fqn = some r := by
  cases h with
  | gone absent _ =>
    have hdeleted := absent r hr
    rw [tick_of_nil hrest, hpresent] at hdeleted
    cases hdeleted
  | there found _ record =>
    obtain rfl := Option.some.inj (hr.symm.trans found)
    rw [tick_of_nil hrest] at record ⊢
    exact ⟨rfl, record⟩

theorem described_describe (s : Simulator) (fqn : String) :
    Described fqn s (s.describe fqn).1 (s.describe fqn).2 := by
  rw [describe]
  cases hr : s.records.get? fqn with
  | none => exact .gone (fun old hold => by rw [hr] at hold; cases hold) hr
  | some r =>
    simp only
    split
    · next hdeleted =>
      refine .gone (fun old hold => ?_) (by rw [Table.get?_erase, if_pos rfl])
      obtain rfl := Option.some.inj (hr.symm.trans hold)
      exact hdeleted
    · next hdeleted =>
      exact .there hr (Bool.not_eq_true _ ▸ hdeleted) (by rw [Table.get?_insert, if_pos rfl])

theorem Described.of_log {fqn name : String} {s after : Simulator} {operation : Operation}
    {described : Option Deployment} (h : Described fqn (s.log operation name) after described) :
    Described fqn s after described := by
  cases h with
  | gone absent record => exact .gone absent record
  | there found present record => exact .there found present record

theorem respond_describe (s : Simulator) (fqn : String) :
    ∃ after described, Provider.simulated.respond s (.describe fqn) =
      (after, .answer (.ok described)) ∧ Described fqn s after described :=
  ⟨_, _, rfl, (described_describe (s.log .describe fqn) fqn).of_log⟩

/-- A stack that is not there is created. -/
theorem respond_create {s : Simulator} (submission : Submission)
    (h : s.records.get? submission.fqn = none) :
    ∃ after r, Provider.simulated.respond s (.create submission) = (after, .answer (.ok ())) ∧
      after.records.get? submission.fqn = some r ∧
      r.stack.templateHash = some submission.template.hash := by
  have hcreate := create_of_none (s := s.log .create submission.fqn) h
  exact ⟨_, _, congrArg (fun pair => (pair.1, Reply.answer pair.2)) hcreate,
    (Table.get?_insert _ _ _ _).trans (if_pos rfl), rfl⟩

/-- A stack that is there and not in progress is updated, unless its template is the same. -/
theorem update_cases {s : Simulator} {submission : Submission} {r : Record}
    (h : s.records.get? submission.fqn = some r) (hsettled : r.stack.state.isInProgress = false) :
    if r.stack.templateHash = some submission.template.hash then
      (s.update submission).2 = .ok .noChange ∧
        (s.update submission).1.records.get? submission.fqn = some r
    else
      (s.update submission).2 = .ok .submitted ∧
        ∃ r', (s.update submission).1.records.get? submission.fqn = some r' ∧
          r'.stack.templateHash = some submission.template.hash := by
  split
  · next hhash =>
    rw [update_of_same h hsettled hhash]
    exact ⟨rfl, h⟩
  · next hhash =>
    rw [update_of_other h hsettled hhash]
    exact ⟨rfl, _, (Table.get?_insert _ _ _ _).trans (if_pos rfl), rfl⟩

theorem respond_update {s : Simulator} (submission : Submission) {r : Record}
    (h : s.records.get? submission.fqn = some r) (hsettled : r.stack.state.isInProgress = false) :
    ∃ after, if r.stack.templateHash = some submission.template.hash then
        Provider.simulated.respond s (.update submission) = (after, .answer (.ok .noChange)) ∧
          after.records.get? submission.fqn = some r
      else
        Provider.simulated.respond s (.update submission) = (after, .answer (.ok .submitted)) ∧
          ∃ r', after.records.get? submission.fqn = some r' ∧
            r'.stack.templateHash = some submission.template.hash := by
  have hcases := update_cases (s := s.log .update submission.fqn) h hsettled
  refine ⟨((s.log .update submission.fqn).update submission).1, ?_⟩
  split at hcases
  · next hhash =>
    rw [if_pos hhash]
    exact ⟨congrArg (fun answer => (_, Reply.answer answer)) hcases.1, hcases.2⟩
  · next hhash =>
    rw [if_neg hhash]
    exact ⟨congrArg (fun answer => (_, Reply.answer answer)) hcases.1, hcases.2⟩

/-! ## Where records come from -/

/-- The record of a stack after an event: the one that was there, with other outputs if it is given
some, or one state further if it is described; that of a stack on which an operation has started; or
that of a stack that is put there. -/
inductive ComesOf (s : Simulator) (fqn : String) : Event → Record → Prop where
  | left {event : Event} {r : Record} (found : s.records.get? fqn = some r) : ComesOf s fqn event r
  | supplied {r : Record} (outputs : Table String) (found : s.records.get? fqn = some r) :
      ComesOf s fqn (.outputs fqn outputs) { r with stack := { r.stack with outputs } }
  | described {r : Record} (found : s.records.get? fqn = some r)
      (present : (tick (s.outputs.get? fqn) r).stack.state.isDeleted = false) :
      ComesOf s fqn (.request (.describe fqn)) (tick (s.outputs.get? fqn) r)
  | created {request : Request} {stack : Deployment} (state : stack.state = Task.create.progress)
      (named : stack.fqn = fqn) : ComesOf s fqn (.request request) ⟨stack, s.agenda fqn .create⟩
  | started {request : Request} {r : Record} {stack : Deployment} (task : Task)
      (state : stack.state = task.progress) (found : s.records.get? fqn = some r)
      (named : stack.fqn = r.stack.fqn) :
      ComesOf s fqn (.request request) ⟨stack, s.agenda fqn task⟩
  | put {stack : Deployment} (named : stack.fqn = fqn) : ComesOf s fqn (.insert stack) { stack }

theorem comesOf_request {s : Simulator} {request : Request} {r : Record}
    (h : (s.request request).records.get? request.fqn = some r) :
    ComesOf s request.fqn (.request request) r := by
  cases request with
  | describe fqn =>
    obtain ⟨after, described, hrespond, hdescribed⟩ := respond_describe s fqn
    rw [request, hrespond] at h
    cases hdescribed with
    | gone _ record => cases record.symm.trans h
    | there found present record =>
      obtain rfl := Option.some.inj (record.symm.trans h)
      exact .described found present
  | create submission =>
    replace h : ((s.log .create submission.fqn).create submission).1.records.get? submission.fqn =
      some r := h
    cases hold : (s.log .create submission.fqn).records.get? submission.fqn with
    | some old =>
      rw [create_of_some hold] at h
      exact .left h
    | none =>
      rw [create_of_none hold, Table.get?_insert, if_pos rfl] at h
      cases h
      exact .created rfl rfl
  | update submission =>
    replace h : ((s.log .update submission.fqn).update submission).1.records.get? submission.fqn =
      some r := h
    have hupdated := updated_update (s.log .update submission.fqn) submission
    generalize (s.log .update submission.fqn).update submission = pair at h hupdated
    cases hupdated with
    | absent _ | busy _ _ | same _ _ _ => exact .left h
    | starts found _ _ =>
      rw [Table.get?_insert, if_pos rfl] at h
      cases h
      exact .started .update rfl found rfl
  | destroy fqn =>
    replace h : ((s.log .destroy fqn).destroy fqn).1.records.get? fqn = some r := h
    cases hold : (s.log .destroy fqn).records.get? fqn with
    | none =>
      rw [destroy_of_none hold] at h
      exact .left h
    | some old =>
      rw [destroy_of_some hold, Table.get?_insert, if_pos rfl] at h
      cases h
      exact .started .destroy rfl hold rfl
  | outputs fqn => exact .left h

/-- Every record comes of the last event in one of these ways. -/
theorem comesOf_next {s : Simulator} {fqn : String} {event : Event} {r : Record}
    (h : (s.next event).records.get? fqn = some r) : ComesOf s fqn event r := by
  cases event with
  | ticks n => exact .left h
  | outputs name outputs =>
    rw [next, withOutputs, Table.get?_modify] at h
    split at h
    · next hname =>
      obtain rfl := hname
      obtain ⟨old, hold, rfl⟩ := Option.map_eq_some_iff.1 h
      exact .supplied outputs hold
    · exact .left h
  | fail name operation =>
    rw [next, fail] at h
    split at h <;> exact .left h
  | insert stack =>
    rw [next, insert, Table.get?_insert] at h
    split at h
    · next hname =>
      cases h
      exact .put hname.symm
    · exact .left h
  | request request =>
    by_cases hname : fqn = request.fqn
    · subst hname
      exact comesOf_request h
    · exact .left ((respond_elsewhere hname s).record.symm.trans h)

/-! ## Courses -/

/-- The courses that operations take: a state of progress, and the states in which they settle. -/
def courses : List (StackState × List StackState) :=
  [(.createInProgress, [.createComplete]),
    (.createInProgress, [.rollbackInProgress, .rollbackComplete]),
    (.updateInProgress, [.updateComplete]),
    (.updateInProgress, [.updateRollbackInProgress, .updateRollbackComplete]),
    (.deleteInProgress, [.deleteComplete]),
    (.deleteInProgress, [.deleteFailed])]

namespace Record

/-- The state of a stack and those still to be reported. -/
def states (r : Record) : List StackState := r.stack.state :: r.transitions

end Record

/-- What is true of the states of an operation stays true as they are reported. -/
structure Lasting (P : List StackState → Prop) : Prop where
  course : ∀ course ∈ courses, ∀ n,
    P (course.1 :: (List.replicate n course.1 ++ course.2))
  report : ∀ state next rest, P (state :: next :: rest) → P (next :: rest)

/-- The states of every record have a property. -/
def Throughout (P : List StackState → Prop) (s : Simulator) : Prop :=
  ∀ fqn r, s.records.get? fqn = some r → P r.states

namespace Lasting

variable {P : List StackState → Prop} {s : Simulator}

theorem throughout_empty : Throughout P {} := nofun

variable (hP : Lasting P)
include hP

theorem tick {r : Record} (h : P r.states) (outputs : Option (Table String)) :
    P (tick outputs r).states := by
  obtain ⟨stack, transitions⟩ := r
  cases transitions with
  | nil => exact h
  | cons next rest => exact hP.report _ _ _ h

theorem agenda (s : Simulator) (fqn : String) (task : Task) {stack : Deployment}
    (h : stack.state = task.progress) : P (Record.states ⟨stack, s.agenda fqn task⟩) := by
  have hcourse : ∀ badly, (task.progress, task.settled badly) ∈ courses := by
    cases task <;> decide
  rw [Record.states, h]
  exact hP.course _ (hcourse (s.isMarked fqn task.operation)) _

/-- An event leaves it true of all records, if it is also true of stacks that are put there. -/
theorem next (h : s.Throughout P) {event : Event}
    (hinsert : ∀ stack, event = .insert stack → P [stack.state]) : (s.next event).Throughout P := by
  intro fqn r hr
  cases comesOf_next hr with
  | left found => exact h fqn _ found
  | supplied _ found =>
    have hstates := h fqn _ found
    exact hstates
  | described found _ => exact hP.tick (h fqn _ found) _
  | created state _ => exact hP.agenda s fqn .create state
  | started task state _ _ => exact hP.agenda s fqn task state
  | put _ => exact hinsert _ rfl

theorem respond (h : s.Throughout P) (request : Request) :
    (Provider.simulated.respond s request).1.Throughout P := by
  have hnext : (s.next (.request request)).Throughout P := hP.next h nofun
  exact hnext

/-- After some events it is true of all records. -/
theorem after (h : s.Throughout P) {events : List Event}
    (hinsert : ∀ stack, .insert stack ∈ events → P [stack.state]) :
    (s.after events).Throughout P := by
  induction events generalizing s with
  | nil => exact h
  | cons event events ih =>
    refine ih (hP.next h fun stack hevent => hinsert stack (hevent ▸ List.mem_cons_self)) ?_
    exact fun stack hmem => hinsert stack (List.mem_cons_of_mem _ hmem)

end Lasting

/-! ## What lasts -/

/-- All states but the last one are in progress. -/
def Orderly (states : List StackState) : Prop :=
  ∀ state ∈ states.dropLast, state.isInProgress = true

theorem lasting_orderly : Lasting Orderly where
  course course hcourse n := by
    have hsettles : ∀ course ∈ courses, course.1.isInProgress = true ∧ course.2 ≠ [] ∧
        Orderly course.2 := by
      simp only [Orderly]
      decide
    obtain ⟨hprogress, hsome, hsettled⟩ := hsettles course hcourse
    intro state hstate
    rw [← List.cons_append, List.dropLast_append_of_ne_nil hsome, List.mem_append,
      ← List.replicate_succ] at hstate
    rcases hstate with hstate | hstate
    · exact List.eq_of_mem_replicate hstate ▸ hprogress
    · exact hsettled state hstate
  report state next rest h found hfound := h found (List.mem_cons_of_mem _ hfound)

/-- A stack that is not in progress has nothing left to report. -/
theorem Orderly.transitions_eq_nil {r : Record} (h : Orderly r.states)
    (hsettled : r.stack.state.isInProgress = false) : r.transitions = [] := by
  obtain ⟨stack, transitions⟩ := r
  cases transitions with
  | nil => rfl
  | cons next rest =>
    rw [h stack.state List.mem_cons_self] at hsettled
    cases hsettled

/-- A stack that is in progress after a transition was so before. -/
theorem Orderly.isInProgress_of_tick {r : Record} (h : Orderly r.states)
    {outputs : Option (Table String)}
    (hprogress : (tick outputs r).stack.state.isInProgress = true) :
    r.stack.state.isInProgress = true := by
  cases hsettled : r.stack.state.isInProgress with
  | true => rfl
  | false =>
    rw [tick_of_nil (h.transitions_eq_nil hsettled), hsettled] at hprogress
    cases hprogress

theorem isComplete_iff (state : StackState) :
    state.isComplete = true ↔ state = .createComplete ∨ state = .updateComplete := by
  cases state <;> simp [StackState.isComplete]

theorem not_isInProgress_of_isComplete {state : StackState} (h : state.isComplete = true) :
    state.isInProgress = false := by
  rcases (isComplete_iff state).1 h with rfl | rfl <;> rfl

/-- Only deletions can have failed. -/
def Usual (states : List StackState) : Prop :=
  ∀ state ∈ states, state.isFailed = true → state = .deleteFailed

theorem lasting_usual : Lasting Usual where
  course course hcourse n := by
    have husual : ∀ course ∈ courses, Usual (course.1 :: course.2) := by
      simp only [Usual]
      decide
    intro state hstate
    rw [← List.cons_append, List.mem_append, ← List.replicate_succ] at hstate
    refine husual course hcourse state (List.mem_cons.2 ?_)
    exact hstate.imp_left List.eq_of_mem_replicate
  report state next rest h found hfound := h found (List.mem_cons_of_mem _ hfound)

end Rollout.Simulator

import Rollout.Proofs.Provider.Record
import Rollout.Proofs.Provider.Submissions

/-!
# Stacks in the making

Where no operation is marked to end badly and each stack is submitted with one template only, a
stack that was not there is created once, and after that it stays as it was created.

* `Simulator.creating` and `Simulator.created`: a record until its creation is over, and then.
* `Simulator.Steady`: the outputs to come are settled, and no operation will end badly.
* `Simulator.OnCourse`: every record is on its way to the template that a goal names for it.
* `Request.Pursues` and `Simulator.OnCourse.respond`: what can be asked without getting off course.
-/

namespace Rollout

namespace Simulator

/-! ## The course of a creation -/

/-- The outputs that a stack gets when its creation is complete. -/
def outputsFor (s : Simulator) (fqn : String) : Table String := (s.outputs.get? fqn).getD .empty

/-- A stack whose creation will be reported as in progress so many more times. -/
def creating (fqn hash : String) (n : Nat) : Record :=
  ⟨⟨fqn, .createInProgress, some hash, .empty⟩,
    .replicate n .createInProgress ++ [.createComplete]⟩

/-- A stack whose creation is complete. -/
def created (s : Simulator) (fqn hash : String) : Record :=
  ⟨⟨fqn, .createComplete, some hash, s.outputsFor fqn⟩, []⟩

/-- The creation of the stack is under way or complete. -/
inductive Rising (origin : Simulator) (fqn hash : String) : Record → Prop
  | creating (n : Nat) : Rising origin fqn hash (creating fqn hash n)
  | created : Rising origin fqn hash (origin.created fqn hash)

namespace Rising

variable {origin : Simulator} {fqn hash : String} {r : Record}

/-- It stays so as its states are reported. -/
theorem tick (h : Rising origin fqn hash r) :
    Rising origin fqn hash (tick (origin.outputs.get? fqn) r) := by
  cases h with
  | creating n =>
    cases n with
    | zero => exact .created
    | succ n => exact .creating n
  | created => exact .created

theorem not_isDeleted (h : Rising origin fqn hash r) : r.stack.state.isDeleted = false := by
  cases h <;> rfl

theorem templateHash (h : Rising origin fqn hash r) : r.stack.templateHash = some hash := by
  cases h <;> rfl

end Rising

/-! ## Steady providers -/

/-- The outputs to come are those of another simulator, and no operation will end badly. -/
structure Steady (origin s : Simulator) : Prop where
  outputs : s.outputs = origin.outputs
  failures : s.failures = []

/-- No request changes that. -/
theorem Steady.respond {origin s : Simulator} (h : Steady origin s) (request : Request) :
    Steady origin (Provider.simulated.respond s request).1 where
  outputs := (changedAt_answer (s.log request.operation request.fqn) request).outputs.trans
    h.outputs
  failures := by
    obtain ⟨left, hleft⟩ := failures_respond s request
    rw [hleft, h.failures, List.filter_nil]

/-- A stack that is not there will be created without a failure. -/
theorem Steady.respond_create {origin s : Simulator} (h : Steady origin s)
    (submission : Submission) (hnone : s.records.get? submission.fqn = none) :
    ∃ after n, Provider.simulated.respond s (.create submission) = (after, .answer (.ok ())) ∧
      after.records.get? submission.fqn =
        some (creating submission.fqn submission.template.hash n) := by
  have hcreate := create_of_none (s := s.log .create submission.fqn) hnone
  have hmark : (s.log .create submission.fqn).isMarked submission.fqn .create = false := by
    rw [isMarked, takeFailure, log, h.failures]
    rfl
  rw [agenda, Task.operation, hmark] at hcreate
  exact ⟨_, _, congrArg (fun pair => (pair.1, Reply.answer pair.2)) hcreate,
    (Table.get?_insert _ _ _ _).trans (if_pos rfl)⟩

/-! ## On course -/

variable {goal : String → String → Prop} {origin s : Simulator}

/-- The simulator is steady, and every stack in it is being created with the template that the goal
names, or was. -/
structure OnCourse (goal : String → String → Prop) (origin s : Simulator) : Prop where
  steady : Steady origin s
  rising : ∀ fqn r, s.records.get? fqn = some r → ∃ hash, goal fqn hash ∧ Rising origin fqn hash r

/-- Describing a stack tells how far its creation is. It stays if it is there. -/
theorem OnCourse.respond_describe (h : OnCourse goal origin s) (fqn : String) :
    ∃ after described, Provider.simulated.respond s (.describe fqn) =
        (after, .answer (.ok described)) ∧
      described = (after.records.get? fqn).map (·.stack) ∧
      after.records.get? fqn = (s.records.get? fqn).map (Simulator.tick (s.outputs.get? fqn)) := by
  obtain ⟨after, described, hrespond, hdescribed⟩ := Simulator.respond_describe s fqn
  refine ⟨after, described, hrespond, ?_⟩
  cases hdescribed with
  | gone absent record =>
    rw [record]
    refine ⟨rfl, ?_⟩
    cases hr : s.records.get? fqn with
    | none => rfl
    | some r =>
      obtain ⟨hash, -, hrising⟩ := h.rising fqn r hr
      have hdeleted := absent r hr
      rw [h.steady.outputs, hrising.tick.not_isDeleted] at hdeleted
      cases hdeleted
  | there found _ record =>
    rw [record, found]
    exact ⟨rfl, rfl⟩

end Simulator

/-- Nothing is destroyed, and no template is submitted but the one that the goal names. -/
structure Request.Pursues (goal : String → String → Prop) (request : Request) : Prop where
  spares : ∀ fqn, request ≠ .destroy fqn
  submits : ∀ submission, request.submission? = some submission →
    goal submission.fqn submission.template.hash

theorem Request.pursues_describe (goal : String → String → Prop) (fqn : String) :
    (Request.describe fqn).Pursues goal :=
  ⟨fun _ h => Request.noConfusion h, fun _ h => absurd h (Option.some_ne_none _).symm⟩

namespace Simulator

variable {goal : String → String → Prop} {origin s : Simulator}

/-- An update with the template that the goal names changes no record. -/
theorem records_update (h : OnCourse goal origin s) {submission : Submission}
    (hgoal : ∀ hash, goal submission.fqn hash → hash = submission.template.hash) :
    (s.update submission).1.records = s.records := by
  have hupdated := updated_update s submission
  generalize s.update submission = pair at hupdated ⊢
  cases hupdated with
  | absent _ | busy _ _ | same _ _ _ => rfl
  | starts found _ hash =>
    obtain ⟨hash', hhash, hrising⟩ := h.rising submission.fqn _ found
    rw [hrising.templateHash, hgoal hash' hhash] at hash
    exact absurd rfl hash

/-- Requests in pursuit of the goal stay on course, if the goal names one template for a stack. -/
theorem OnCourse.respond (h : OnCourse goal origin s)
    (hgoal : ∀ {fqn hash hash'}, goal fqn hash → goal fqn hash' → hash = hash')
    {request : Request} (hrequest : request.Pursues goal) :
    OnCourse goal origin (Provider.simulated.respond s request).1 := by
  refine ⟨h.steady.respond request, fun fqn r hr => ?_⟩
  by_cases hfqn : fqn = request.fqn
  · subst hfqn
    cases request with
    | describe fqn =>
      obtain ⟨after, _, hrespond, -, hafter⟩ := h.respond_describe fqn
      rw [hrespond] at hr
      obtain ⟨old, hold, rfl⟩ := Option.map_eq_some_iff.1 (hafter.symm.trans hr)
      obtain ⟨hash, hhash, hrising⟩ := h.rising fqn old hold
      exact ⟨hash, hhash, h.steady.outputs ▸ hrising.tick⟩
    | create submission =>
      cases hold : s.records.get? submission.fqn with
      | none =>
        obtain ⟨after, n, hrespond, hafter⟩ := h.steady.respond_create submission hold
        rw [hrespond] at hr
        obtain rfl := Option.some.inj (hafter.symm.trans hr)
        exact ⟨_, hrequest.submits submission rfl, .creating n⟩
      | some old =>
        have hsame : (Provider.simulated.respond s (.create submission)).1.records = s.records := by
          show ((s.log .create submission.fqn).create submission).1.records = _
          rw [create_of_some (s := s.log .create submission.fqn) hold]
          rfl
        rw [hsame] at hr
        exact h.rising _ r hr
    | update submission =>
      have hlog : OnCourse goal origin (s.log .update submission.fqn) :=
        ⟨⟨h.steady.outputs, h.steady.failures⟩, h.rising⟩
      have hsame := records_update hlog fun hash hhash =>
        hgoal hhash (hrequest.submits submission rfl)
      exact h.rising _ r (hsame ▸ hr)
    | destroy fqn => exact absurd rfl (hrequest.spares fqn)
    | outputs fqn => exact h.rising fqn r hr
  · rw [(respond_elsewhere hfqn s).record] at hr
    exact h.rising fqn r hr

end Simulator

end Rollout

import Rollout.Proofs.Provider.Settling

/-!
# Requests that are refused

A request that is answered with an error changes no record and no outputs. An update or a
destruction loses the mark on its operation all the same, for it takes the mark before it looks at
the stack; a creation looks first.

* `Simulator.Refuses`: a request is answered with an error. `Simulator.takes`: the requests that
  take a mark.
* `Simulator.request_of_refused`: what a request that is refused changes.
* `Simulator.isMarked_after`: a mark while the requests of its kind are refused.
* `Simulator.refused_spends_mark`: what is left of a mark when an operation starts at last.
* `Simulator.mark_lost`: an update that should have been rolled back and is not.
-/

namespace Rollout

/-- An operation takes its mark before it looks at the stack. -/
def Operation.takesFirst : Operation → Bool
  | .update | .destroy => true
  | .describe | .create | .getOutputs => false

theorem Operation.takesFirst_iff (operation : Operation) :
    operation.takesFirst = true ↔ operation = .update ∨ operation = .destroy := by
  cases operation <;> decide

/-- Only creations look at the stack first. -/
theorem Task.takesFirst_operation (task : Task) :
    task.operation.takesFirst = !decide (task = .create) := by
  cases task <;> rfl

namespace Simulator

variable {s : Simulator} {r : Request} {task : Task} {fqn : String} {operation : Operation}
  {event : Event} {later : List Event}

/-- A request is answered with an error. -/
def Refuses (s : Simulator) (r : Request) : Prop :=
  ∃ error, (Provider.simulated.respond s r).2 = .answer (.error error)

/-- A request takes the mark on its operation. -/
def takes (s : Simulator) (r : Request) : Bool :=
  r.operation.takesFirst || (r.operation = .create && !s.contains r.fqn)

/-- The marks after a request. -/
theorem failures_request (s : Simulator) (r : Request) :
    (s.request r).failures =
      if s.takes r then s.failures.filter (· ≠ (r.fqn, r.operation)) else s.failures := by
  cases r with
  | describe name =>
    show ((s.log .describe name).describe name).1.failures = s.failures
    rw [describe]
    split
    · rfl
    · simp only
      split <;> rfl
  | create submission =>
    have htakes : s.takes (.create submission) = !s.contains submission.fqn := by
      simp [takes, Request.operation, Request.fqn, Operation.takesFirst]
    show ((s.log .create submission.fqn).create submission).1.failures = _
    rw [create, htakes, show (s.log .create submission.fqn).contains submission.fqn =
      s.contains submission.fqn from rfl]
    cases s.contains submission.fqn <;> rfl
  | update submission =>
    show ((s.log .update submission.fqn).update submission).1.failures = _
    have hupdated := updated_update (s.log .update submission.fqn) submission
    generalize (s.log .update submission.fqn).update submission = pair at hupdated ⊢
    cases hupdated <;> rfl
  | destroy name =>
    show ((s.log .destroy name).destroy name).1.failures = _
    rw [destroy]
    simp only
    split <;> rfl
  | outputs name => rfl

/-- A request that is refused changes the log, and takes its mark if it does so first. -/
theorem request_of_refused (h : s.Refuses r) :
    s.request r = { s with
      calls := (r.operation, r.fqn) :: s.calls
      failures :=
        if r.operation.takesFirst then s.failures.filter (· ≠ (r.fqn, r.operation))
        else s.failures } := by
  obtain ⟨error, h⟩ := h
  cases r with
  | describe name => cases Reply.answer.inj h
  | create submission =>
    have hanswer : ((s.log .create submission.fqn).create submission).2 = .error error :=
      Reply.answer.inj h
    show ((s.log .create submission.fqn).create submission).1 = _
    cases hr : (s.log .create submission.fqn).records.get? submission.fqn with
    | none =>
      rw [create_of_none hr] at hanswer
      cases hanswer
    | some r =>
      rw [create_of_some hr]
      rfl
  | update submission =>
    have hanswer : ((s.log .update submission.fqn).update submission).2 = .error error :=
      Reply.answer.inj h
    show ((s.log .update submission.fqn).update submission).1 = _
    have hupdated := updated_update (s.log .update submission.fqn) submission
    generalize (s.log .update submission.fqn).update submission = pair at hanswer hupdated ⊢
    cases hupdated with
    | absent _ | busy _ _ => rfl
    | same _ _ _ | starts _ _ _ => cases hanswer
  | destroy name =>
    have hanswer : ((s.log .destroy name).destroy name).2 = .error error :=
      Reply.answer.inj h
    show ((s.log .destroy name).destroy name).1 = _
    cases hr : (s.log .destroy name).records.get? name with
    | none =>
      rw [destroy_of_none hr]
      rfl
    | some r =>
      rw [destroy_of_some hr] at hanswer
      cases hanswer
  | outputs name => rfl

/-! ## Marks -/

theorem isMarked_iff : s.isMarked fqn operation = true ↔ (fqn, operation) ∈ s.failures :=
  decide_eq_true_iff

theorem isMarked_eq_of_iff {t : Simulator}
    (h : (fqn, operation) ∈ t.failures ↔ (fqn, operation) ∈ s.failures) :
    t.isMarked fqn operation = s.isMarked fqn operation :=
  decide_eq_decide.2 h

/-- Events other than requests of its kind leave a mark, unless they put it on. -/
theorem isMarked_next (hasks : event.asks fqn operation = false)
    (hfail : event ≠ .fail fqn operation) :
    (s.next event).isMarked fqn operation = s.isMarked fqn operation := by
  apply isMarked_eq_of_iff
  cases event with
  | ticks _ | outputs _ _ | insert _ => exact Iff.rfl
  | fail name other =>
    have hother : ¬ ((fqn, operation) = (name, other)) := by
      rintro ⟨⟩
      exact hfail rfl
    rw [next, fail]
    split
    · exact Iff.rfl
    · simp [hother]
  | request r =>
    have hother : (fqn, operation) ≠ (r.fqn, r.operation) := by
      intro heq
      obtain ⟨hfqn, hoperation⟩ := Prod.mk.inj heq
      simp [Event.asks, hfqn, hoperation] at hasks
    rw [next, failures_request]
    split
    · simp [hother]
    · exact Iff.rfl

/-- A request of its kind that is refused takes a mark, if it does so first. -/
theorem isMarked_request_of_refused (h : s.Refuses r) :
    (s.request r).isMarked r.fqn r.operation =
      (s.isMarked r.fqn r.operation && !r.operation.takesFirst) := by
  rw [request_of_refused h]
  cases r.operation.takesFirst <;> simp [isMarked, takeFailure]

theorem Event.exists_of_asks (h : event.asks fqn operation = true) :
    ∃ r, event = .request r ∧ r.fqn = fqn ∧ r.operation = operation := by
  cases event with
  | request r => exact ⟨r, rfl, of_decide_eq_true h⟩
  | _ => cases h

/-- Every request of a kind about a stack is refused when it comes in. -/
def RefusesAll (s : Simulator) (fqn : String) (operation : Operation) : List Event → Prop
  | [] => True
  | event :: later =>
    (∀ r, event = .request r → r.fqn = fqn → r.operation = operation → s.Refuses r) ∧
      RefusesAll (s.next event) fqn operation later

/-- A mark that is not put on again stays until it is taken by a request that is refused. -/
theorem isMarked_after (hrefused : s.RefusesAll fqn operation later)
    (hfail : .fail fqn operation ∉ later) :
    (s.after later).isMarked fqn operation = (s.isMarked fqn operation &&
      !(operation.takesFirst && later.any (·.asks fqn operation))) := by
  induction later generalizing s with
  | nil => simp [after]
  | cons event later ih =>
    obtain ⟨hnow, hlater⟩ := hrefused
    obtain ⟨hother, hothers⟩ := not_or.1 (List.mem_cons.not.1 hfail)
    have hafter : (s.after (event :: later)).isMarked fqn operation = _ := ih hlater hothers
    rw [hafter, List.any_cons]
    cases hasks : event.asks fqn operation with
    | false => rw [isMarked_next hasks (Ne.symm hother), Bool.false_or]
    | true =>
      obtain ⟨r, rfl, rfl, rfl⟩ := Event.exists_of_asks hasks
      rw [next, isMarked_request_of_refused (hnow r rfl rfl rfl), Bool.true_or, Bool.and_true]
      cases r.operation.takesFirst <;> simp

/-! ## What is left of a mark -/

theorem isMarked_fail (s : Simulator) (fqn : String) (operation : Operation) :
    (s.fail fqn operation).isMarked fqn operation = true := by
  rw [isMarked_iff, fail]
  split
  · assumption
  · exact List.mem_cons_self

/-- The marks that a request leaves when it is refused are the old ones, if it does not take one. -/
theorem failures_of_refused (h : s.Refuses r) :
    (s.request r).failures = s.failures ↔
      (r.operation.takesFirst = true → (r.fqn, r.operation) ∉ s.failures) := by
  rw [request_of_refused h]
  cases hfirst : r.operation.takesFirst with
  | false => simp
  | true =>
    simp only [if_true, List.filter_eq_self, decide_eq_true_eq, true_implies]
    exact ⟨fun hnone hmem => hnone _ hmem rfl, fun hmark x hx heq => hmark (heq ▸ hx)⟩

/-- A request that is refused leaves the records, what is to come of them and the outputs. It leaves
the marks too, unless it is an update or a destruction that is marked, which is not marked any
longer then. So an operation that starts after others of its kind were refused ends badly, as it was
marked to, if it is a creation or none was refused. -/
theorem refused_spends_mark (s : Simulator) :
    (∀ r, s.Refuses r →
      s.request r = { s with
        calls := (r.operation, r.fqn) :: s.calls
        failures :=
          if r.operation = .update ∨ r.operation = .destroy then
            s.failures.filter (· ≠ (r.fqn, r.operation))
          else s.failures }) ∧
    (∀ r, s.Refuses r → ((s.request r).failures = s.failures ↔
      (r.operation = .update ∨ r.operation = .destroy → (r.fqn, r.operation) ∉ s.failures))) ∧
    ∀ r (task : Task) later,
      ((s.fail r.fqn task.operation).after later).Starts r task →
      (s.fail r.fqn task.operation).RefusesAll r.fqn task.operation later →
      .fail r.fqn task.operation ∉ later →
      ∃ first, (((s.fail r.fqn task.operation).after later).request r).records.get? r.fqn =
        some ⟨first, ((s.fail r.fqn task.operation).after later).schedule task.progress
          (task.settled (task = .create || !later.any (·.asks r.fqn task.operation)))⟩ := by
  refine ⟨fun r hrefused => ?_, fun r hrefused => ?_, fun r task later starts hrefused hfail => ?_⟩
  · simp only [request_of_refused hrefused, Operation.takesFirst_iff]
  · rw [failures_of_refused hrefused, Operation.takesFirst_iff]
  · obtain ⟨first, hfirst⟩ := starts.exists_first
    have hmark := isMarked_after hrefused hfail
    rw [isMarked_fail, Bool.true_and, Bool.not_and, Task.takesFirst_operation, Bool.not_not]
      at hmark
    exact ⟨first, by rw [hfirst.record, agenda, hmark]⟩

/-! ## One mark kept and one lost -/

/-- A stack that is complete. -/
def standing : Deployment := ⟨"n-a", .createComplete, none, .empty⟩

/-- A template for the stack. -/
def submitted : Submission := ⟨"n-a", .ofBody "t", .empty⟩

/-- The stack is in the way of its creation, and destroyed then. -/
def inTheWay : List Event :=
  [.request (.create submitted), .request (.destroy "n-a"), .request (.describe "n-a")]

/-- The stack is put there after an update. -/
def tooLate : List Event := [.request (.update submitted), .insert standing]

/-- The creation that starts in the end is rolled back. The update is not, though marked. -/
theorem refused_spends_mark_kinds :
    (∃ first, (((((({} : Simulator).insert standing).fail "n-a" .create).after inTheWay).request
        (.create submitted)).records.get? "n-a") =
      some ⟨first, [.rollbackInProgress, .rollbackComplete]⟩) ∧
    ∃ first, (((((({} : Simulator).fail "n-a" .update).after tooLate).request
        (.update submitted)).records.get? "n-a") = some ⟨first, [.updateComplete]⟩) := by
  have hcreate : ((({} : Simulator).insert standing).fail "n-a" .create).RefusesAll "n-a" .create
      inTheWay := by
    refine ⟨?_, ?_, ?_, trivial⟩
    · rintro _ ⟨⟩ - -
      exact ⟨_, rfl⟩
    · rintro _ ⟨⟩ - ⟨⟩
    · rintro _ ⟨⟩ - ⟨⟩
  have hupdate : (({} : Simulator).fail "n-a" .update).RefusesAll "n-a" .update tooLate := by
    refine ⟨?_, nofun, trivial⟩
    rintro _ ⟨⟩ - -
    exact ⟨_, rfl⟩
  exact ⟨(refused_spends_mark (({} : Simulator).insert standing)).2.2 (.create submitted) .create
      inTheWay (.create submitted rfl) hcreate (by simp [inTheWay]),
    (refused_spends_mark {}).2.2 (.update submitted) .update tooLate (.update submitted rfl) hupdate
      (by simp [tooLate])⟩

/-- An update that is refused takes the mark with it, and the next one is complete. -/
theorem mark_lost :
    (({} : Simulator).fail "n-a" .update).Refuses (.update submitted) ∧
    ((({} : Simulator).fail "n-a" .update).request (.update submitted)).failures ≠
      (({} : Simulator).fail "n-a" .update).failures ∧
    ((({} : Simulator).fail "n-a" .update).after tooLate).Starts (.update submitted) .update ∧
    (((({} : Simulator).fail "n-a" .update).after tooLate).after
      [.request (.update submitted), .request (.describe "n-a")]).stateOf? "n-a" =
        some .updateComplete := by
  exact ⟨⟨_, rfl⟩, by decide +kernel, .update submitted rfl, by decide +kernel⟩

end Simulator

end Rollout

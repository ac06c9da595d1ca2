import Rollout.Proofs.Data.Table
import Rollout.Provider.Simulator

/-!
# A request concerns one stack

What the simulator answers to a request, and what it remembers of it, is a matter of one stack: the
one that the request is about.

* `Simulator.AgreeAt`: two simulators know the same of a stack.
* `Simulator.respond_reply` and `respond_agreeAt`: where they agree, they answer the same and go on
  agreeing.
* `Simulator.ChangedAt` and `Simulator.changedAt_answer`: what a request can change.
* `Simulator.respond_elsewhere`, `respond_outputs`: of other stacks nothing changes, and asking for
  outputs changes nothing at all.
* `Simulator.calls_respond`, `failures_respond`: what else changes with a request.
-/

namespace Rollout.Simulator

/-- Two simulators know the same of a stack. -/
structure AgreeAt (fqn : String) (s t : Simulator) : Prop where
  record : s.records.get? fqn = t.records.get? fqn
  outputs : s.outputs.get? fqn = t.outputs.get? fqn
  /-- The same operations on it will end badly. -/
  failures : ∀ operation, (fqn, operation) ∈ s.failures ↔ (fqn, operation) ∈ t.failures
  ticks : s.ticks = t.ticks

namespace AgreeAt

variable {fqn : String} {s t u : Simulator}

theorem refl (fqn : String) (s : Simulator) : AgreeAt fqn s s := ⟨rfl, rfl, fun _ => Iff.rfl, rfl⟩

theorem symm (h : AgreeAt fqn s t) : AgreeAt fqn t s :=
  ⟨h.record.symm, h.outputs.symm, fun operation => (h.failures operation).symm, h.ticks.symm⟩

theorem trans (h : AgreeAt fqn s t) (h' : AgreeAt fqn t u) : AgreeAt fqn s u :=
  ⟨h.record.trans h'.record, h.outputs.trans h'.outputs,
    fun operation => (h.failures operation).trans (h'.failures operation), h.ticks.trans h'.ticks⟩

/-- The log of the calls is no knowledge of a stack. -/
theorem of_calls (fqn : String) (s : Simulator) (calls : List (Operation × String)) :
    AgreeAt fqn { s with calls } s := ⟨rfl, rfl, fun _ => Iff.rfl, rfl⟩

theorem log (h : AgreeAt fqn s t) (operation : Operation) (name : String) :
    AgreeAt fqn (s.log operation name) (t.log operation name) :=
  (of_calls fqn s _).trans (h.trans (of_calls fqn t _).symm)

theorem insert (h : AgreeAt fqn s t) (name : String) (record : Record) :
    AgreeAt fqn { s with records := s.records.insert name record }
      { t with records := t.records.insert name record } :=
  { h with record := by rw [Table.get?_insert, Table.get?_insert, h.record] }

theorem erase (h : AgreeAt fqn s t) (name : String) :
    AgreeAt fqn { s with records := s.records.erase name }
      { t with records := t.records.erase name } :=
  { h with record := by rw [Table.get?_erase, Table.get?_erase, h.record] }

theorem takeFailure (h : AgreeAt fqn s t) (operation : Operation) :
    (s.takeFailure fqn operation).1 = (t.takeFailure fqn operation).1 ∧
      AgreeAt fqn (s.takeFailure fqn operation).2 (t.takeFailure fqn operation).2 := by
  refine ⟨?_, { h with failures := fun other => ?_ }⟩
  · simp only [Simulator.takeFailure, h.failures operation]
  · simp only [Simulator.takeFailure, List.mem_filter, h.failures other]

theorem schedule (h : AgreeAt fqn s t) (inProgress : StackState) (settled : List StackState) :
    s.schedule inProgress settled = t.schedule inProgress settled := by
  rw [Simulator.schedule, Simulator.schedule, h.ticks]

end AgreeAt

/-! ## One request, two simulators that agree -/

variable {fqn : String} {s t : Simulator}

theorem describe_agreeAt (h : AgreeAt fqn s t) :
    (s.describe fqn).2 = (t.describe fqn).2 ∧
      AgreeAt fqn (s.describe fqn).1 (t.describe fqn).1 := by
  rw [describe, describe, h.record, h.outputs]
  cases t.records.get? fqn with
  | none => exact ⟨rfl, h⟩
  | some r =>
    simp only
    split
    · exact ⟨rfl, h.erase fqn⟩
    · exact ⟨rfl, h.insert fqn _⟩

theorem create_agreeAt {submission : Submission} (h : AgreeAt submission.fqn s t) :
    (s.create submission).2 = (t.create submission).2 ∧
      AgreeAt submission.fqn (s.create submission).1 (t.create submission).1 := by
  have hthere : s.contains submission.fqn = t.contains submission.fqn := by
    rw [contains, contains, Table.contains, Table.contains, h.record]
  obtain ⟨hfails, hafter⟩ := h.takeFailure .create
  simp only [create, hthere]
  split
  · exact ⟨rfl, h⟩
  · simp only [hfails, hafter.schedule]
    exact ⟨trivial, hafter.insert _ _⟩

theorem update_agreeAt {submission : Submission} (h : AgreeAt submission.fqn s t) :
    (s.update submission).2 = (t.update submission).2 ∧
      AgreeAt submission.fqn (s.update submission).1 (t.update submission).1 := by
  obtain ⟨hfails, hafter⟩ := h.takeFailure .update
  simp only [update, hafter.record, hfails, hafter.schedule]
  cases (t.takeFailure submission.fqn .update).2.records.get? submission.fqn with
  | none => exact ⟨rfl, hafter⟩
  | some r =>
    simp only
    split
    · exact ⟨rfl, hafter⟩
    · split
      · exact ⟨rfl, hafter⟩
      · exact ⟨rfl, hafter.insert _ _⟩

theorem destroy_agreeAt (h : AgreeAt fqn s t) :
    (s.destroy fqn).2 = (t.destroy fqn).2 ∧ AgreeAt fqn (s.destroy fqn).1 (t.destroy fqn).1 := by
  obtain ⟨hfails, hafter⟩ := h.takeFailure .destroy
  simp only [destroy, hafter.record, hfails, hafter.schedule]
  cases (t.takeFailure fqn .destroy).2.records.get? fqn with
  | none => exact ⟨rfl, hafter⟩
  | some r => exact ⟨rfl, hafter.insert _ _⟩

/-- Simulators that agree about the stack of a request answer it in the same way, and they agree
about the stack afterwards. -/
theorem answer_agreeAt {r : Request} (h : AgreeAt r.fqn s t) :
    (s.answer r).2 = (t.answer r).2 ∧ AgreeAt r.fqn (s.answer r).1 (t.answer r).1 := by
  cases r with
  | describe fqn =>
    obtain ⟨hdescribed, hafter⟩ := describe_agreeAt h
    exact ⟨congrArg Except.ok hdescribed, hafter⟩
  | create submission => exact create_agreeAt h
  | update submission => exact update_agreeAt h
  | destroy fqn => exact destroy_agreeAt h
  | outputs fqn =>
    refine ⟨?_, h⟩
    show s.outputsOf fqn = t.outputsOf fqn
    rw [outputsOf, outputsOf, show s.records.get? fqn = t.records.get? fqn from h.record]

/-! ## One request, all other stacks -/

/-- From one simulator to another nothing has changed but the record of a stack and the marks on its
operations, of which some may be gone. -/
structure ChangedAt (name : String) (s t : Simulator) : Prop where
  records : ∀ fqn ≠ name, t.records.get? fqn = s.records.get? fqn
  outputs : t.outputs = s.outputs
  failures : ∃ left : String × Operation → Bool, t.failures = s.failures.filter left ∧
    ∀ fqn ≠ name, ∀ operation, left (fqn, operation) = true
  ticks : t.ticks = s.ticks
  /-- The log of the calls is the same. -/
  calls : t.calls = s.calls

namespace ChangedAt

variable {name : String}

theorem refl (name : String) (s : Simulator) : ChangedAt name s s where
  records _ _ := rfl
  outputs := rfl
  failures := ⟨fun _ => true, by simp⟩
  ticks := rfl
  calls := rfl

theorem takeFailure (name : String) (s : Simulator) (operation : Operation) :
    ChangedAt name s (s.takeFailure name operation).2 where
  records _ _ := rfl
  outputs := rfl
  failures := ⟨_, rfl, fun fqn hne other => by simp [hne]⟩
  ticks := rfl
  calls := rfl

theorem insert (h : ChangedAt name s t) (record : Record) :
    ChangedAt name s { t with records := t.records.insert name record } :=
  { h with records := fun fqn hne => by rw [Table.get?_insert, if_neg hne, h.records fqn hne] }

theorem erase (h : ChangedAt name s t) :
    ChangedAt name s { t with records := t.records.erase name } :=
  { h with records := fun fqn hne => by rw [Table.get?_erase, if_neg hne, h.records fqn hne] }

/-- Of other stacks as much is known as before. -/
theorem agreeAt (h : ChangedAt name s t) (hne : fqn ≠ name) : AgreeAt fqn t s where
  record := h.records fqn hne
  outputs := by rw [h.outputs]
  failures operation := by
    obtain ⟨left, hleft, hothers⟩ := h.failures
    rw [hleft, List.mem_filter, hothers fqn hne operation]
    exact and_iff_left rfl
  ticks := h.ticks

end ChangedAt

/-- A request changes no more than the record of its stack and the marks on its operations. -/
theorem changedAt_answer (s : Simulator) (r : Request) : ChangedAt r.fqn s (s.answer r).1 := by
  cases r with
  | describe name =>
    simp only [answer, describe]
    split
    · exact .refl name s
    · split
      · exact (ChangedAt.refl name s).erase
      · exact (ChangedAt.refl name s).insert _
  | create submission =>
    simp only [answer, create]
    split
    · exact .refl submission.fqn s
    · exact (ChangedAt.takeFailure submission.fqn s .create).insert _
  | update submission =>
    have htaken := ChangedAt.takeFailure submission.fqn s .update
    simp only [answer, update]
    split
    · exact htaken
    · split
      · exact htaken
      · split
        · exact htaken
        · exact htaken.insert _
  | destroy name =>
    have htaken := ChangedAt.takeFailure name s .destroy
    simp only [answer, destroy]
    split
    · exact htaken
    · exact htaken.insert _
  | outputs name => exact .refl name s

/-! ## The provider -/

theorem respond_eq (s : Simulator) (r : Request) :
    Provider.simulated.respond s r =
      (((s.log r.operation r.fqn).answer r).1, .answer ((s.log r.operation r.fqn).answer r).2) :=
  rfl

/-- Where two simulators agree about the stack of a request, their replies are the same. -/
theorem respond_reply {r : Request} (h : AgreeAt r.fqn s t) :
    (Provider.simulated.respond s r).2 = (Provider.simulated.respond t r).2 := by
  rw [respond_eq, respond_eq, (answer_agreeAt (h.log r.operation r.fqn)).1]

theorem respond_elsewhere {r : Request} (h : fqn ≠ r.fqn) (s : Simulator) :
    AgreeAt fqn (Provider.simulated.respond s r).1 s :=
  ((changedAt_answer _ r).agreeAt h).trans (.of_calls fqn s _)

/-- Asking for outputs changes nothing that is known of any stack. -/
theorem respond_outputs (fqn name : String) (s : Simulator) :
    AgreeAt fqn (Provider.simulated.respond s (.outputs name)).1 s := .of_calls fqn s _

/-- Where two simulators agree about a stack, they do so after a request, if they agree about the
stack of the request. -/
theorem respond_agreeAt {r : Request} (h : AgreeAt fqn s t) (hr : AgreeAt r.fqn s t) :
    AgreeAt fqn (Provider.simulated.respond s r).1 (Provider.simulated.respond t r).1 := by
  by_cases hf : fqn = r.fqn
  · subst hf
    exact (answer_agreeAt (hr.log r.operation r.fqn)).2
  · exact (respond_elsewhere hf s).trans (h.trans (respond_elsewhere hf t).symm)

theorem calls_respond (s : Simulator) (r : Request) :
    (Provider.simulated.respond s r).1.calls = (r.operation, r.fqn) :: s.calls :=
  (changedAt_answer _ r).calls

/-- A request can take a mark off an operation, and puts none on. -/
theorem failures_respond (s : Simulator) (r : Request) :
    ∃ left : String × Operation → Bool,
      (Provider.simulated.respond s r).1.failures = s.failures.filter left := by
  obtain ⟨left, hleft, -⟩ := (changedAt_answer (s.log r.operation r.fqn) r).failures
  exact ⟨left, hleft⟩

end Rollout.Simulator

import Rollout.Proofs.Provider.Record

/-!
# How operations settle

An operation that has been started on a stack settles as the stack is described. When, and in which
states, is decided when it starts: nothing that happens to other stacks, or was left behind by an
earlier operation, has a part in it.

* `Task.report` and `Task.outputs`: what descriptions of the stack show.
* `Simulator.Starts`: a request starts an operation. `Simulator.Starts.exists_first`: its record.
* `Simulator.Record.next?` and `Simulator.request_describe`: what describing a stack makes of its
  record.
* `Task.recordAt` and `Task.next_recordAt`: the record after so many descriptions, and one more.
* `Simulator.Event.Spares` and `Simulator.next_of_spares`: what may happen meanwhile.
  `Simulator.UnderWay.after`: the operation then.
* `Simulator.settles_on_schedule`: each description, and the outputs in between.
-/

namespace Rollout

namespace Task

/-- The state that the description shows with which the operation settles, well or badly, and those
that later ones show; none if the stack is gone. -/
def outcome : Task → Bool → Nat → Option StackState
  | create, false, _ => some .createComplete
  | create, true, 0 => some .rollbackInProgress
  | create, true, _ + 1 => some .rollbackComplete
  | update, false, _ => some .updateComplete
  | update, true, 0 => some .updateRollbackInProgress
  | update, true, _ + 1 => some .updateRollbackComplete
  | destroy, false, _ => none
  | destroy, true, _ => some .deleteFailed

/-- The state that the description of a number shows, if the operation takes `ticks` of them to
settle. -/
def report (task : Task) (badly : Bool) (ticks number : Nat) : Option StackState :=
  if number < ticks then some task.progress else task.outcome badly (number - ticks)

/-- The outputs of the stack then: those that it had, until a create or an update is complete for
which there are others to come. -/
def outputs (task : Task) (badly : Bool) (ticks number : Nat) (coming : Option (Table String))
    (held : Table String) : Table String :=
  if ticks ≤ number ∧ badly = false ∧ task ≠ destroy then coming.getD held else held

/-- No operation that is in progress is over. -/
theorem progress_open (task : Task) :
    task.progress.isComplete = false ∧ task.progress.isDeleted = false := by
  cases task <;> exact ⟨rfl, rfl⟩

end Task

namespace Simulator

variable {s : Simulator} {r : Request} {task : Task} {fqn : String} {event : Event}
  {events : List Event}

/-! ## Operations that start -/

/-- The outputs of a stack, none if it is not there. -/
def held (s : Simulator) (fqn : String) : Table String :=
  ((s.records.get? fqn).map (·.stack.outputs)).getD .empty

/-- A request starts an operation: it is not answered with an error, and an update is submitted. -/
inductive Starts (s : Simulator) : Request → Task → Prop where
  | create (submission : Submission)
      (accepted : (Provider.simulated.respond s (.create submission)).2 = .answer (.ok ())) :
      Starts s (.create submission) .create
  | update (submission : Submission)
      (submitted : (Provider.simulated.respond s (.update submission)).2 =
        .answer (.ok .submitted)) :
      Starts s (.update submission) .update
  | destroy (fqn : String)
      (accepted : (Provider.simulated.respond s (.destroy fqn)).2 = .answer (.ok ())) :
      Starts s (.destroy fqn) .destroy

theorem held_of_some {r : Record} (h : s.records.get? fqn = some r) :
    s.held fqn = r.stack.outputs := by
  rw [held, h]
  rfl

theorem held_of_none (h : s.records.get? fqn = none) : s.held fqn = .empty := by
  rw [held, h]
  rfl

/-- What there is of a stack when an operation on it has started. -/
structure StartsWith (s : Simulator) (fqn : String) (task : Task) (after : Simulator)
    (first : Deployment) : Prop where
  record : after.records.get? fqn = some ⟨first, s.agenda fqn task⟩
  state : first.state = task.progress
  /-- Its outputs are those that it had. -/
  outputs : first.outputs = s.held fqn
  /-- A stack that is created has none. -/
  created : task = .create → first.outputs = .empty

theorem StartsWith.of_log {after : Simulator} {first : Deployment} {operation : Operation}
    {name : String} (h : (s.log operation name).StartsWith fqn task after first) :
    s.StartsWith fqn task after first :=
  ⟨h.record, h.state, h.outputs, h.created⟩

theorem create_starts {submission : Submission} (h : (s.create submission).2 = .ok ()) :
    ∃ first, s.StartsWith submission.fqn .create (s.create submission).1 first := by
  cases hr : s.records.get? submission.fqn with
  | some r =>
    rw [create_of_some hr] at h
    cases h
  | none =>
    rw [create_of_none hr]
    exact ⟨_, (Table.get?_insert _ _ _ _).trans (if_pos rfl), rfl, (held_of_none hr).symm,
      fun _ => rfl⟩

theorem update_starts {submission : Submission} (h : (s.update submission).2 = .ok .submitted) :
    ∃ first, s.StartsWith submission.fqn .update (s.update submission).1 first := by
  have hupdated := updated_update s submission
  generalize s.update submission = pair at h hupdated ⊢
  cases hupdated with
  | absent _ | busy _ _ | same _ _ _ => cases h
  | starts found _ _ =>
    exact ⟨_, (Table.get?_insert _ _ _ _).trans (if_pos rfl), rfl, (held_of_some found).symm, nofun⟩

theorem destroy_starts (h : (s.destroy fqn).2 = .ok ()) :
    ∃ first, s.StartsWith fqn .destroy (s.destroy fqn).1 first := by
  cases hr : s.records.get? fqn with
  | none =>
    rw [destroy_of_none hr] at h
    cases h
  | some r =>
    rw [destroy_of_some hr]
    exact ⟨_, (Table.get?_insert _ _ _ _).trans (if_pos rfl), rfl, (held_of_some hr).symm, nofun⟩

/-- An operation starts with the record that it will run down. -/
theorem Starts.exists_first (h : s.Starts r task) :
    ∃ first, s.StartsWith r.fqn task (s.request r) first := by
  cases h with
  | create submission accepted =>
    exact (create_starts (s := s.log .create submission.fqn) (Reply.answer.inj accepted)).imp
      fun _ hfirst => hfirst.of_log
  | update submission submitted =>
    exact (update_starts (s := s.log .update submission.fqn) (Reply.answer.inj submitted)).imp
      fun _ hfirst => hfirst.of_log
  | destroy fqn accepted =>
    exact (destroy_starts (s := s.log .destroy fqn) (Reply.answer.inj accepted)).imp
      fun _ hfirst => hfirst.of_log

/-- What is to come of outputs is as before. -/
theorem outputs_request (s : Simulator) (r : Request) : (s.request r).outputs = s.outputs :=
  (changedAt_answer (s.log r.operation r.fqn) r).outputs

/-! ## Descriptions -/

/-- A record after its next transition, if the stack is still there. -/
def Record.next? (coming : Option (Table String)) (r : Record) : Option Record :=
  if (tick coming r).stack.state.isDeleted then none else some (tick coming r)

/-- A stack is described as it is after its next transition. -/
theorem request_describe (s : Simulator) (fqn : String) :
    (s.request (.describe fqn)).records.get? fqn =
        (s.records.get? fqn).bind (Record.next? (s.outputs.get? fqn)) ∧
      (Provider.simulated.respond s (.describe fqn)).2 = .answer (.ok
        (((s.records.get? fqn).bind (Record.next? (s.outputs.get? fqn))).map (·.stack))) := by
  obtain ⟨after, described, hrespond, hdescribed⟩ := respond_describe s fqn
  rw [request, hrespond]
  cases hdescribed with
  | gone absent record =>
    have hnone : (s.records.get? fqn).bind (Record.next? (s.outputs.get? fqn)) = none := by
      cases hold : s.records.get? fqn with
      | none => rfl
      | some old => simp [Record.next?, absent old hold]
    rw [hnone]
    exact ⟨record, rfl⟩
  | there found present record =>
    rw [found]
    simp [Record.next?, present, record]

end Simulator

namespace Task

variable {task : Task} {badly : Bool} {ticks number : Nat} {coming : Option (Table String)}
  {first : Deployment}

/-- A stack after so many descriptions, if it is still there. -/
def stackAt (task : Task) (badly : Bool) (ticks : Nat) (coming : Option (Table String))
    (first : Deployment) (number : Nat) : Option Deployment :=
  (task.report badly ticks number).map fun state =>
    { first with state, outputs := task.outputs badly ticks number coming first.outputs }

/-- The record of the stack then. -/
def recordAt (task : Task) (badly : Bool) (ticks : Nat) (coming : Option (Table String))
    (first : Deployment) (number : Nat) : Option Simulator.Record :=
  (task.stackAt badly ticks coming first number).map fun stack =>
    ⟨stack, (List.replicate (ticks - 1) task.progress ++ task.settled badly).drop number⟩

theorem map_stack_recordAt (task : Task) (badly : Bool) (ticks : Nat)
    (coming : Option (Table String)) (first : Deployment) (number : Nat) :
    (task.recordAt badly ticks coming first number).map (·.stack) =
      task.stackAt badly ticks coming first number := by
  simp [recordAt, Function.comp_def]

theorem recordAt_of_lt (h : number < ticks) :
    task.recordAt badly ticks coming first number =
      some ⟨{ first with state := task.progress },
        List.replicate (ticks - 1 - number) task.progress ++ task.settled badly⟩ := by
  have hearlier : number - (ticks - 1) = 0 := by omega
  have hopen : ¬ ticks ≤ number := by omega
  simp [recordAt, stackAt, report, outputs, h, hopen, List.drop_append, hearlier]

theorem recordAt_add (h : 0 < ticks) (n : Nat) :
    task.recordAt badly ticks coming first (ticks + n) =
      (task.outcome badly n).map fun state =>
        ⟨{ first with state, outputs := task.outputs badly ticks ticks coming first.outputs },
          (task.settled badly).drop (n + 1)⟩ := by
  have hlater : ticks + n - (ticks - 1) = n + 1 := by omega
  have hnone : ticks - 1 - (ticks + n) = 0 := by omega
  have hover : ¬ ticks + n < ticks := by omega
  simp [recordAt, stackAt, report, outputs, List.drop_append, Function.comp_def, hlater, hnone,
    hover]

/-- The description with which the operation settles. -/
theorem next_settled (task : Task) (badly : Bool) (ticks : Nat) (coming : Option (Table String))
    (first : Deployment) :
    Simulator.Record.next? coming ⟨{ first with state := task.progress }, task.settled badly⟩ =
      (task.outcome badly 0).map fun state =>
        ⟨{ first with state, outputs := task.outputs badly ticks ticks coming first.outputs },
          (task.settled badly).drop 1⟩ := by
  cases task <;> cases badly <;>
    simp [Simulator.Record.next?, Simulator.tick, settled, outcome, outputs,
      StackState.isComplete, StackState.isDeleted]

/-- Later descriptions. None of them brings outputs. -/
theorem next_outcome (task : Task) (badly : Bool) (coming : Option (Table String))
    (stack : Deployment) (n : Nat) :
    ((task.outcome badly n).map fun state =>
        (⟨{ stack with state }, (task.settled badly).drop (n + 1)⟩ : Simulator.Record)).bind
      (Simulator.Record.next? coming) =
    (task.outcome badly (n + 1)).map fun state =>
      ⟨{ stack with state }, (task.settled badly).drop (n + 1 + 1)⟩ := by
  cases task <;> cases badly <;> cases n <;>
    simp [Simulator.Record.next?, Simulator.tick, settled, outcome, StackState.isComplete,
      StackState.isDeleted]

/-- Each description takes the record one further. -/
theorem next_recordAt (hticks : 0 < ticks) (number : Nat) :
    (task.recordAt badly ticks coming first number).bind (Simulator.Record.next? coming) =
      task.recordAt badly ticks coming first (number + 1) := by
  rcases Nat.lt_trichotomy (number + 1) ticks with h | h | h
  · obtain ⟨hcomplete, hdeleted⟩ := task.progress_open
    obtain ⟨n, hn⟩ : ∃ n, ticks - 1 - number = n + 1 := ⟨ticks - 1 - number - 1, by omega⟩
    have hrest : ticks - 1 - (number + 1) = n := by omega
    rw [recordAt_of_lt (by omega), recordAt_of_lt h, hn, hrest]
    simp [Simulator.Record.next?, Simulator.tick, List.replicate_succ, hcomplete, hdeleted]
  · have hrest : ticks - 1 - number = 0 := by omega
    rw [recordAt_of_lt (by omega), hrest, h]
    exact (next_settled task badly ticks coming first).trans (recordAt_add hticks 0).symm
  · obtain ⟨n, rfl⟩ : ∃ n, number = ticks + n := ⟨number - ticks, by omega⟩
    rw [Nat.add_assoc, recordAt_add hticks, recordAt_add hticks]
    exact next_outcome task badly coming
      { first with outputs := task.outputs badly ticks ticks coming first.outputs } n

end Task

namespace Simulator

variable {s : Simulator} {r : Request} {task : Task} {fqn : String} {event : Event}
  {events : List Event}

/-! ## What may happen meanwhile -/

/-- An event leaves the operation on a stack alone. It may describe the stack, ask for its outputs,
mark operations and change how many descriptions later ones take, and anything may happen to other
stacks. -/
def Event.Spares (fqn : String) : Event → Prop
  | .outputs name _ => name ≠ fqn
  | .insert stack => stack.fqn ≠ fqn
  | .request r => r.fqn = fqn → r.operation = .describe ∨ r.operation = .getOutputs
  | .ticks _ | .fail _ _ => True

/-- An event is a request of a kind about a stack. -/
def Event.asks (fqn : String) (operation : Operation) : Event → Bool
  | .request r => r.fqn = fqn ∧ r.operation = operation
  | _ => false

theorem countP_asks_cons (fqn : String) (operation : Operation) (event : Event)
    (events : List Event) :
    (event :: events).countP (·.asks fqn operation) =
      (event.asks fqn operation).toNat + events.countP (·.asks fqn operation) := by
  rw [List.countP_cons, Nat.add_comm]
  cases event.asks fqn operation <;> rfl

/-- Of a stack that is left alone nothing changes, unless it is described. -/
theorem next_of_spares (hspares : event.Spares fqn) (s : Simulator) :
    (s.next event).records.get? fqn =
        (if event.asks fqn .describe = true then
          (s.records.get? fqn).bind (Record.next? (s.outputs.get? fqn))
        else s.records.get? fqn) ∧
      (s.next event).outputs.get? fqn = s.outputs.get? fqn := by
  cases event with
  | ticks n => exact ⟨rfl, rfl⟩
  | outputs name outputs =>
    exact ⟨(Table.get?_modify _ _ _ _).trans (if_neg hspares.symm),
      (Table.get?_insert _ _ _ _).trans (if_neg hspares.symm)⟩
  | fail name operation =>
    rw [next, fail]
    split <;> exact ⟨rfl, rfl⟩
  | insert stack => exact ⟨(Table.get?_insert _ _ _ _).trans (if_neg hspares.symm), rfl⟩
  | request r =>
    by_cases hfqn : r.fqn = fqn
    · refine ⟨?_, congrArg (·.get? fqn) (outputs_request s r)⟩
      cases r with
      | describe name =>
        obtain rfl : name = fqn := hfqn
        have hasks : Event.asks name .describe (.request (.describe name)) = true := by
          simp [Event.asks, Request.fqn, Request.operation]
        rw [if_pos hasks]
        exact (request_describe s name).1
      | outputs name =>
        have hasks : ¬ Event.asks fqn .describe (.request (.outputs name)) = true := by
          simp [Event.asks, Request.operation]
        rw [if_neg hasks]
        rfl
      | create _ | update _ | destroy _ => simp [Event.Spares, Request.operation, hfqn] at hspares
    · have hasks : ¬ Event.asks fqn .describe (.request r) = true := by simp [Event.asks, hfqn]
      have helsewhere := respond_elsewhere (Ne.symm hfqn) s
      rw [if_neg hasks]
      exact ⟨helsewhere.record, helsewhere.outputs⟩

/-- An operation on a stack is under way, or settled, and the stack has been described so often. -/
structure UnderWay (task : Task) (badly : Bool) (ticks : Nat) (coming : Option (Table String))
    (first : Deployment) (fqn : String) (number : Nat) (now : Simulator) : Prop where
  record : now.records.get? fqn = task.recordAt badly ticks coming first number
  outputs : now.outputs.get? fqn = coming

namespace UnderWay

variable {badly : Bool} {ticks number : Nat} {coming : Option (Table String)} {first : Deployment}
  {now : Simulator}

/-- Only being described takes it further, by one description. -/
theorem next (hticks : 0 < ticks) (h : UnderWay task badly ticks coming first fqn number now)
    (hspares : event.Spares fqn) :
    UnderWay task badly ticks coming first fqn (number + (event.asks fqn .describe).toNat)
      (now.next event) := by
  obtain ⟨hrecord, houtputs⟩ := next_of_spares hspares now
  refine ⟨?_, houtputs.trans h.outputs⟩
  rw [hrecord, h.record, h.outputs]
  cases event.asks fqn .describe with
  | true => exact Task.next_recordAt hticks number
  | false => rfl

/-- The operation is as far as the stack was described. -/
theorem after (hticks : 0 < ticks) (h : UnderWay task badly ticks coming first fqn number now)
    (hspares : ∀ event ∈ events, event.Spares fqn) :
    UnderWay task badly ticks coming first fqn (number + events.countP (·.asks fqn .describe))
      (now.after events) := by
  induction events generalizing number now with
  | nil => exact h
  | cons event events ih =>
    have hnext := h.next hticks (hspares event List.mem_cons_self)
    have hlater := ih hnext fun later hmem => hspares later (List.mem_cons_of_mem _ hmem)
    rw [countP_asks_cons, ← Nat.add_assoc]
    exact hlater

end UnderWay

/-! ## What shows -/

/-- What there is of a stack, what it will be described as, and what is replied when its outputs are
asked for. -/
structure Shows (now : Simulator) (fqn : String) (stack described : Option Deployment) :
    Prop where
  record : (now.records.get? fqn).map (·.stack) = stack
  describe : (Provider.simulated.respond now (.describe fqn)).2 = .answer (.ok described)
  outputs : (Provider.simulated.respond now (.outputs fqn)).2 =
    .answer (stack.elim (.error (.provider "get_outputs" fqn "stack does not exist"))
      fun stack => .ok stack.outputs)

theorem respond_outputs_reply (s : Simulator) (fqn : String) :
    (Provider.simulated.respond s (.outputs fqn)).2 =
      .answer (((s.records.get? fqn).map (·.stack)).elim
        (.error (.provider "get_outputs" fqn "stack does not exist"))
        fun stack => .ok stack.outputs) := by
  show Reply.answer (outputsOf (s.log .getOutputs fqn) fqn) = _
  rw [outputsOf, log]
  cases s.records.get? fqn <;> rfl

theorem UnderWay.shows {badly : Bool} {ticks number : Nat} {coming : Option (Table String)}
    {first : Deployment} {now : Simulator} (hticks : 0 < ticks)
    (h : UnderWay task badly ticks coming first fqn number now) :
    now.Shows fqn (task.stackAt badly ticks coming first number)
      (task.stackAt badly ticks coming first (number + 1)) where
  record := by rw [h.record, Task.map_stack_recordAt]
  describe := by
    rw [(request_describe _ _).2, h.record, h.outputs, Task.next_recordAt hticks,
      Task.map_stack_recordAt]
  outputs := by rw [respond_outputs_reply, h.record, Task.map_stack_recordAt]

theorem Starts.underWay (h : s.Starts r task) :
    ∃ first, s.StartsWith r.fqn task (s.request r) first ∧
      UnderWay task (s.isMarked r.fqn task.operation) s.ticks (s.outputs.get? r.fqn) first r.fqn 0
        (s.request r) := by
  obtain ⟨first, hfirst⟩ := h.exists_first
  refine ⟨first, hfirst, ?_, congrArg (·.get? r.fqn) (outputs_request s r)⟩
  rw [hfirst.record, Task.recordAt_of_lt s.ticks_pos, agenda, schedule, ← hfirst.state]
  rfl

/-- From the request on that starts an operation, the stack is there, is described and has the
outputs as the schedule of the operation has it, as long as what happens spares the operation. -/
theorem settles_on_schedule (starts : s.Starts r task) :
    ∃ first, s.StartsWith r.fqn task (s.request r) first ∧
      ∀ later number, (∀ event ∈ later, event.Spares r.fqn) →
        later.countP (·.asks r.fqn .describe) = number →
        ((s.request r).after later).Shows r.fqn
          (task.stackAt (s.isMarked r.fqn task.operation) s.ticks (s.outputs.get? r.fqn) first
            number)
          (task.stackAt (s.isMarked r.fqn task.operation) s.ticks (s.outputs.get? r.fqn) first
            (number + 1)) := by
  obtain ⟨first, hfirst, hunderway⟩ := starts.underWay
  refine ⟨first, hfirst, fun later number hspares hnumber => ?_⟩
  have hlater := hunderway.after s.ticks_pos hspares
  rw [Nat.zero_add, hnumber] at hlater
  exact hlater.shows s.ticks_pos

/-! ## Outputs that are replaced -/

/-- A stack is there whose outputs will be others once an operation on it is complete. -/
def replaced : List Event :=
  [.ticks 2, .outputs "n-a" (.ofList [("U", "v")]),
    .insert ⟨"n-a", .createComplete, none, .ofList [("W", "w")]⟩]

/-- The stack is described once, the next update of it is marked, and another one is created. -/
def meanwhile : List Event :=
  [.request (.describe "n-a"), .fail "n-a" .update,
    .request (.create ⟨"n-b", .ofBody "t", .empty⟩)]

/-- The mark comes too late, and the second description brings the other outputs. -/
theorem settles_on_schedule_replaced :
    ∃ first : Deployment, first.outputs = .ofList [("W", "w")] ∧
      (((({} : Simulator).after replaced).request (.update ⟨"n-a", .ofBody "t", .empty⟩)).after
          meanwhile).Shows "n-a"
        (some { first with state := .updateInProgress })
        (some { first with state := .updateComplete, outputs := .ofList [("U", "v")] }) := by
  obtain ⟨first, hfirst, hlater⟩ := settles_on_schedule (s := ({} : Simulator).after replaced)
    (.update ⟨"n-a", .ofBody "t", .empty⟩ rfl)
  have hheld : first.outputs = .ofList [("W", "w")] := hfirst.outputs.trans (by decide +kernel)
  have hspares : ∀ event ∈ meanwhile, event.Spares "n-a" := by
    simp [meanwhile, Event.Spares, Request.fqn, Request.operation]
  exact ⟨first, hheld, hlater meanwhile 1 hspares rfl⟩

end Simulator

end Rollout

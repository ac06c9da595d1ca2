import Rollout.Proofs.Plan.Moves

/-!
# What a turn makes of a call

The turns of a worker once more, in terms of what its calls do: what the action remembers, where the
step stands, what is left of the call under way, and what becomes of the world.

* `Run.memo?`, `Run.job?`, `Run.Waits`: the views of a step and of its worker.
* `Run.Stride`: a turn by its effect on the call. `Run.Strode` and `Run.strode_of_move?`: every move
  is such a turn, the end of a worker, or neither.
-/

namespace Rollout

variable {μ σ : Type}

namespace Run

variable {r s : Run μ σ} {name : String} {step : Step μ} {worker : Worker μ}

/-- What the action of a step remembers. -/
def memo? (r : Run μ σ) (name : String) : Option μ := (r.step? name).map (·.memo)

/-- What is left of the call that the worker of a step is inside of. -/
def job? (r : Run μ σ) (name : String) : Option (Job (μ × Outcome)) :=
  (r.workers.get? name).bind (·.phase.job?)

/-- The worker of a step waits for its next call. -/
def Waits (r : Run μ σ) (name : String) : Prop :=
  ∃ worker, r.workers.get? name = some worker ∧ worker.phase.isWaiting = true

theorem memo?_eq_some (h : r.step? name = some step) : r.memo? name = some step.memo := by
  rw [memo?, h, Option.map_some]

theorem job?_of_worker (hw : r.workers.get? name = some worker) :
    r.job? name = worker.phase.job? := by
  rw [job?, hw, Option.bind_some]

theorem waits_iff (hw : r.workers.get? name = some worker) :
    r.Waits name ↔ worker.phase.isWaiting = true := by
  rw [Waits, hw]
  simp

/-! ## Setting a status and a phase -/

theorem memo?_setStatus (hs : r.step? name = some step) (hname : step.name = name)
    (status : Status) : (r.setStatus name status).1.memo? name = some step.memo := by
  rw [setStatus, hs]
  by_cases h : step.status = status
  · simp only [if_pos h]
    exact memo?_eq_some hs
  · simp only [if_neg h]
    subst hname
    have hself : (r.setStep { step with status, lastUpdated := r.now }).step? step.name =
        some { step with status, lastUpdated := r.now } := step?_setStep_self hs
    exact congrArg (Option.map (·.memo)) hself

theorem world_setStatus (r : Run μ σ) (name : String) (status : Status) :
    (r.setStatus name status).1.world = r.world := by
  rw [setStatus]
  split
  · rfl
  · split <;> rfl

theorem job?_setPhase (hw : r.workers.get? name = some worker) (phase : Phase μ) :
    (r.setPhase name phase).job? name = phase.job? :=
  job?_of_worker (worker_setPhase hw phase)

theorem waits_setPhase (hw : r.workers.get? name = some worker) (phase : Phase μ) :
    (r.setPhase name phase).Waits name ↔ phase.isWaiting = true :=
  waits_iff (worker_setPhase hw phase)

/-! ## Turns -/

/-- What a turn of the worker of a step makes of the step, of the call and of the world. -/
inductive Stride (provider : Provider σ) (r s : Run μ σ) (name : String) (step : Step μ) : Prop where
  /-- No call is under way, neither before nor after. Only a step that is not done has a worker that
  waits. -/
  | rests (before : r.job? name = none) (after : s.job? name = none) (world : s.world = r.world)
      (memo : s.memo? name = some step.memo)
      (status : s.status? name = some step.status ∨
        r.cancelled = true ∧ s.status? name = some (.cancelled (some "interrupted")))
      (waits : s.Waits name →
        s.status? name = some step.status ∧ (step.status.isDone = false ∨ r.Waits name))
  /-- A call begins. -/
  | begins (before : r.job? name = none) (waited : r.Waits name)
      (after : s.job? name = some (step.action.advance step.memo step.status))
      (world : s.world = r.world) (memo : s.memo? name = some step.memo)
      (status : s.status? name = some step.status)
  /-- The call goes on without asking the provider. -/
  | goesOn {job job' : Job (μ × Outcome)} (before : r.job? name = some job)
      (after : s.job? name = some job')
      (rest : job = job' ∨ (∃ ms, job = .pause ms job') ∨ job = .callOff job')
      (world : s.world = r.world) (memo : s.memo? name = some step.memo)
      (status : s.status? name = some step.status)
  /-- The call asks the provider and goes on with the answer. -/
  | asks {request : Request} {next : Except Error request.Answer → Job (μ × Outcome)}
      {result : Except Error request.Answer} (before : r.job? name = some (.ask request next))
      (after : s.job? name = some (next result))
      (replied : provider.respond r.world request = (s.world, .answer result))
      (memo : s.memo? name = some step.memo) (status : s.status? name = some step.status)
  /-- The call ends. -/
  | returns {memo : μ} {outcome : Outcome} (before : r.job? name = some (.done (memo, outcome)))
      (after : s.job? name = none) (world : s.world = r.world) (remembers : s.memo? name = some memo)
      (status : s.status? name = some outcome.status) (waits : ¬ s.Waits name)
  /-- The provider breaks down over the call. -/
  | crashes {request : Request} {next : Except Error request.Answer → Job (μ × Outcome)}
      {message : Option String} (before : r.job? name = some (.ask request next))
      (after : s.job? name = none)
      (replied : provider.respond r.world request = (s.world, .crash message))
      (memo : s.memo? name = some step.memo)
      (status : s.status? name = some (Outcome.crash message).status) (waits : ¬ s.Waits name)

/-- What is known of a step after a turn that leaves its worker neither inside of a call nor
waiting for one. -/
structure Rested (s : Run μ σ) (name : String) (memo : μ) (status : Status) : Prop where
  job : s.job? name = none
  memo : s.memo? name = some memo
  status : s.status? name = some status
  waits : ¬ s.Waits name

/-- A worker hears that the run was called off. -/
theorem rested_interrupt {step' : Step μ} (hw : s.workers.get? name = some worker)
    (hs : s.step? name = some step') (hname : step'.name = name) :
    Rested (s.interrupt name) name step'.memo (.cancelled (some "interrupted")) := by
  have hsets := sets_setStatus hs hname (.cancelled (some "interrupted"))
  have hw' := hsets.workers ▸ hw
  refine ⟨job?_setPhase hw' _, memo?_setStatus hs hname _, hsets.stands, fun h => ?_⟩
  cases (waits_setPhase hw' _).1 h

theorem world_endCall (s : Run μ σ) (name : String) (outcome : Outcome) :
    (s.endCall name outcome).world = s.world :=
  world_setStatus s name outcome.status

/-- A call ends. -/
theorem rested_endCall {step' : Step μ} (hw : s.workers.get? name = some worker)
    (hs : s.step? name = some step') (hname : step'.name = name) (outcome : Outcome) :
    Rested (s.endCall name outcome) name step'.memo outcome.status := by
  have hsets := sets_setStatus hs hname outcome.status
  have hmemo := memo?_setStatus hs hname outcome.status
  have hw' := hsets.workers ▸ hw
  rw [endCall]
  generalize s.setStatus name outcome.status = pair at hsets hmemo hw'
  obtain ⟨t, broke⟩ := pair
  have hafter := Table.get?_modify_self hw' fun w : Worker μ =>
    if broke then { w with phase := .finished false } else ⟨w.attempt + 1, .deciding⟩
  refine ⟨?_, hmemo, hsets.stands, ?_⟩
  · rw [job?_of_worker hafter]
    cases broke <;> rfl
  · rw [waits_iff hafter]
    cases broke <;> exact Bool.false_ne_true

theorem stride_interrupt {provider : Provider σ} (hw : r.workers.get? name = some worker)
    (hs : r.step? name = some step) (hname : step.name = name) (hc : r.cancelled = true)
    (hjob : worker.phase.job? = none) (slots : Slots) :
    Stride provider r ({ r with slots }.interrupt name) name step := by
  have hrested := rested_interrupt (s := { r with slots }) hw hs hname
  exact .rests ((job?_of_worker hw).trans hjob) hrested.job (world_setStatus { r with slots } _ _)
    hrested.memo (.inr ⟨hc, hrested.status⟩) fun h => absurd h hrested.waits

/-- A worker that is not inside of a call goes on to wait, or ends. -/
theorem stride_setPhase {provider : Provider σ} (hw : r.workers.get? name = some worker)
    (hs : r.step? name = some step) (hjob : worker.phase.job? = none) (slots : Slots)
    {phase : Phase μ} (hphase : phase.job? = none)
    (hwaits : phase.isWaiting = true →
      step.status.isDone = false ∨ worker.phase.isWaiting = true) :
    Stride provider r ({ r with slots }.setPhase name phase) name step := by
  have hstatus : ({ r with slots }.setPhase name phase).status? name = some step.status :=
    status?_eq_some hs
  refine .rests ((job?_of_worker hw).trans hjob) ((job?_setPhase (r := { r with slots }) hw _).trans
    hphase) rfl (memo?_eq_some hs) (.inl hstatus) fun h => ⟨hstatus, ?_⟩
  rw [waits_iff hw]
  exact hwaits ((waits_setPhase (r := { r with slots }) hw _).1 h)

theorem stride_decide {provider : Provider σ} (hw : r.workers.get? name = some worker)
    (hs : r.step? name = some step) (hname : step.name = name) (hphase : worker.phase = .deciding)
    (attempt : Nat) : Stride provider r (r.decide name attempt) name step := by
  have hjob : worker.phase.job? = none := by rw [hphase]; rfl
  simp only [decide, hs]
  split
  · refine stride_setPhase hw hs hjob r.slots rfl fun hwaits => ?_
    cases hwaits
  · next hdone =>
    split
    · next hc => exact stride_interrupt hw hs hname hc hjob r.slots
    · rw [Bool.not_eq_true] at hdone
      split
      · exact stride_setPhase hw hs hjob r.slots rfl fun _ => .inl hdone
      · exact stride_setPhase hw hs hjob r.slots rfl fun _ => .inl hdone

theorem stride_call {provider : Provider σ} (hw : r.workers.get? name = some worker)
    (hs : r.step? name = some step) (hphase : worker.phase = .queued) :
    Stride provider r (r.call name) name step := by
  simp only [call, hs]
  refine .begins ((job?_of_worker hw).trans (by rw [hphase]; rfl))
    ((waits_iff hw).2 (by rw [hphase]; rfl)) ?_ rfl (memo?_eq_some hs) (status?_eq_some hs)
  exact job?_setPhase (r := { r with
    slots := r.slots.take name, calls := (name, step.status) :: r.calls }) hw _

theorem stride_advance {provider : Provider σ} (hw : r.workers.get? name = some worker)
    (hs : r.step? name = some step) (hname : step.name = name) {job : Job (μ × Outcome)}
    (hphase : worker.phase = .advancing job) :
    Stride provider r (r.advance provider name job) name step := by
  have hjob : r.job? name = some job := (job?_of_worker hw).trans (by rw [hphase]; rfl)
  cases job with
  | done value =>
    obtain ⟨memo, outcome⟩ := value
    have halike := alike_setMemo hs hname memo
    have hrested := rested_endCall (halike.workers ▸ hw) halike.found halike.named outcome
    have hsame : (r.setMemo name memo).world = r.world := by
      rw [setMemo, hs]
      rfl
    exact .returns hjob hrested.job ((world_endCall _ name outcome).trans hsame) hrested.memo
      hrested.status hrested.waits
  | ask request next =>
    rw [advance]
    cases hreply : provider.respond r.world request with
    | mk world reply =>
      cases reply with
      | answer result =>
        exact .asks hjob (job?_setPhase (r := { r with world }) hw _) hreply (memo?_eq_some hs)
          (status?_eq_some hs)
      | crash message =>
        have hrested := rested_endCall (s := { r with world }) hw hs hname (.crash message)
        refine .crashes hjob hrested.job (hreply.trans ?_) hrested.memo hrested.status hrested.waits
        rw [world_endCall]
  | pause ms next =>
    exact .goesOn hjob (job?_setPhase hw _) (.inr (.inl ⟨ms, rfl⟩)) rfl (memo?_eq_some hs)
      (status?_eq_some hs)
  | callOff next =>
    exact .goesOn hjob (job?_setPhase (r := { r with cancelled := true }) hw _) (.inr (.inr rfl))
      rfl (memo?_eq_some hs) (status?_eq_some hs)

theorem stride_of_work? {provider : Provider σ} (hw : r.workers.get? name = some worker)
    (hs : r.step? name = some step) (hname : step.name = name)
    (h : r.work? provider name = some s) : Stride provider r s name step := by
  have hnext := h
  simp only [work?, hw] at h
  cases hphase : worker.phase with
  | deciding =>
    simp only [hphase, Option.some.injEq] at h
    subst h
    exact stride_decide hw hs hname hphase _
  | yielding =>
    simp only [hphase, Option.some.injEq] at h
    subst h
    have hjob : worker.phase.job? = none := by rw [hphase]; rfl
    split
    · next hc => exact stride_interrupt hw hs hname hc hjob r.slots
    · exact stride_setPhase hw hs hjob _ rfl fun _ => .inr (by rw [hphase]; rfl)
  | sleeping wake =>
    simp only [hphase, Option.ite_none_right_eq_some, Option.some.injEq] at h
    obtain ⟨-, rfl⟩ := h
    have hjob : worker.phase.job? = none := by rw [hphase]; rfl
    exact stride_setPhase hw hs hjob _ rfl fun _ => .inr (by rw [hphase]; rfl)
  | queued =>
    simp only [hphase, Option.ite_none_right_eq_some, Option.some.injEq] at h
    obtain ⟨-, rfl⟩ := h
    exact stride_call hw hs hphase
  | advancing job =>
    simp only [hphase, Option.some.injEq] at h
    subst h
    exact stride_advance hw hs hname hphase
  | pausing wake job =>
    simp only [hphase, Option.ite_none_right_eq_some, Option.some.injEq] at h
    obtain ⟨-, rfl⟩ := h
    exact .goesOn ((job?_of_worker hw).trans (by rw [hphase]; rfl)) (job?_setPhase hw _) (.inl rfl)
      rfl (memo?_eq_some hs) (status?_eq_some hs)
  | finished ok => exact absurd hphase (not_finished_of_work? hw hnext ok)

theorem stride_of_stop? {provider : Provider σ} (hw : r.workers.get? name = some worker)
    (hs : r.step? name = some step) (hname : step.name = name) (h : r.stop? name = some s) :
    Stride provider r s name step := by
  simp only [stop?, hw, Option.ite_none_right_eq_some, Bool.and_eq_true, Option.some.injEq] at h
  obtain ⟨⟨hc, hlistens⟩, rfl⟩ := h
  refine stride_interrupt hw hs hname hc ?_ _
  cases hphase : worker.phase with
  | sleeping _ => rfl
  | queued => rfl
  | _ =>
    rw [hphase] at hlistens
    cases hlistens

/-! ## Moves -/

/-- What a move makes of a run. -/
inductive Strode (provider : Provider σ) (r s : Run μ σ) : Prop where
  /-- Time passed, or the run was called off. -/
  | passed (plan : s.plan = r.plan) (walk : s.walk = r.walk) (workers : s.workers = r.workers)
      (world : s.world = r.world) (cancelled : r.cancelled = true → s.cancelled = true)
  /-- A worker went on. -/
  | turned {name : String} {worker : Worker μ} {step : Step μ}
      (working : r.workers.get? name = some worker) (found : r.step? name = some step)
      (frame : Frame name r s) (stride : Stride provider r s name step)
  /-- The walk took the end of a worker. -/
  | settled {name : String} {attempt : Nat} {ok : Bool}
      (finished : r.workers.get? name = some ⟨attempt, .finished ok⟩)
      (after : s = staff { r with
        workers := r.workers.erase name, walk := r.walk.settle name ok })

/-- Every move of a run whose workers have steps is one of these. -/
theorem strode_of_move? {provider : Provider σ} {move : Move}
    (hsteps : ∀ name worker, r.workers.get? name = some worker →
      ∃ step, r.step? name = some step ∧ step.name = name)
    (h : r.move? provider move = some s) : Strode provider r s := by
  cases move with
  | wait nanos =>
    cases h
    exact .passed rfl rfl rfl rfl id
  | cancel =>
    cases h
    exact .passed rfl rfl rfl rfl fun _ => rfl
  | work name =>
    cases hw : r.workers.get? name with
    | none => simp [move?, work?, hw] at h
    | some worker =>
      obtain ⟨step, hs, hname⟩ := hsteps name worker hw
      exact .turned hw hs (turn_of_work? hw hs hname h).frame (stride_of_work? hw hs hname h)
  | stop name =>
    cases hw : r.workers.get? name with
    | none => simp [move?, stop?, hw] at h
    | some worker =>
      obtain ⟨step, hs, hname⟩ := hsteps name worker hw
      exact .turned hw hs (turn_of_stop? hw hs hname h).2.frame (stride_of_stop? hw hs hname h)
  | settle name =>
    simp only [move?, settle?] at h
    split at h
    · next attempt ok hw =>
      cases h
      exact .settled hw rfl
    · cases h

end Run

end Rollout

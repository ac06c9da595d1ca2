import Rollout.Plan.Execution
import Rollout.Plan.Job
import Rollout.Proofs.Plan.StepGraph

/-!
# What a move does

The moves of a run are told once, in terms of what later proofs look at: steps, workers, the walk,
the journal and the calls. A turn of a worker touches its own step and itself and nothing else.

* `Run.Frame`: nothing changes but one step and its worker.
* `Run.Effect`: what a turn makes of the step and of the phase of its worker.
* `Run.Moved` and `Run.moved_of_move?`: every move is a turn, the end of a worker, or neither.
* `Run.play` and `Plan.plays`: some moves in a row. `Plan.playsAtOnce` comes to the same, and is
  quicker to work out.
-/

namespace Rollout

variable {μ σ : Type}

namespace Phase

/-- What is left of the call that the worker is inside of. -/
def job? : Phase μ → Option (Job (μ × Outcome))
  | advancing job | pausing _ job => some job
  | _ => none

/-- The worker waits for its next call. -/
def isWaiting : Phase μ → Bool
  | yielding | sleeping _ | queued => true
  | _ => false

end Phase

namespace Run

/-- Where the step of a name stands. -/
def status? (r : Run μ σ) (name : String) : Option Status := (r.step? name).map (·.status)

theorem status?_eq_some {r : Run μ σ} {name : String} {step : Step μ}
    (h : r.step? name = some step) : r.status? name = some step.status := by
  rw [status?, h, Option.map_some]

theorem exists_step_of_status? {r : Run μ σ} {name : String} {status : Status}
    (h : r.status? name = some status) : ∃ step, r.step? name = some step ∧ step.status = status :=
  Option.map_eq_some_iff.1 h

theorem stepIs_eq_true_iff {r : Run μ σ} {name : String} {property : Status → Bool} :
    r.stepIs name property = true ↔ ∃ status, r.status? name = some status ∧ property status := by
  rw [stepIs, status?]
  cases r.step? name with
  | none => simp
  | some step => simp

theorem stepIs_of_status? {r : Run μ σ} {name : String} {status : Status}
    (h : r.status? name = some status) (property : Status → Bool) :
    r.stepIs name property = property status := by
  rw [Bool.eq_iff_iff, stepIs_eq_true_iff, h]
  simp

theorem step?_setStep (r : Run μ σ) (step : Step μ) (m : String) :
    (r.setStep step).step? m = if m = step.name then (r.step? m).map fun _ => step else r.step? m :=
  Table.get?_modify _ _ _ _

theorem step?_setStep_self {r : Run μ σ} {step old : Step μ}
    (h : r.step? step.name = some old) : (r.setStep step).step? step.name = some step := by
  rw [step?_setStep, if_pos rfl, h, Option.map_some]

/-! ## Frames -/

/-- At most the step and the worker of `name` changed, and the step kept its name and its action.
The journal grew. -/
structure Frame (name : String) (r s : Run μ σ) : Prop where
  walk : s.walk = r.walk
  dag : s.plan.graph.dag = r.plan.graph.dag
  sink : s.plan.sink = r.plan.sink
  runId : s.journal.runId = r.journal.runId
  journal : r.journal.reversed <:+ s.journal.reversed
  broken : s.broken = r.broken
  cancelled : r.cancelled = true → s.cancelled = true
  step_of_ne : ∀ m, m ≠ name → s.step? m = r.step? m
  worker_of_ne : ∀ m, m ≠ name → s.workers.get? m = r.workers.get? m
  step : ∀ step, r.step? name = some step →
    ∃ step', s.step? name = some step' ∧ step'.name = step.name ∧ step'.action = step.action

namespace Frame

variable {name : String} {r s t : Run μ σ}

theorem refl (name : String) (r : Run μ σ) : Frame name r r :=
  ⟨rfl, rfl, rfl, rfl, List.suffix_refl _, rfl, id, fun _ _ => rfl, fun _ _ => rfl,
    fun step h => ⟨step, h, rfl, rfl⟩⟩

theorem trans (h : Frame name r s) (h' : Frame name s t) : Frame name r t where
  walk := h'.walk.trans h.walk
  dag := h'.dag.trans h.dag
  sink := h'.sink.trans h.sink
  runId := h'.runId.trans h.runId
  journal := h.journal.trans h'.journal
  broken := h'.broken.trans h.broken
  cancelled := h'.cancelled ∘ h.cancelled
  step_of_ne m hm := (h'.step_of_ne m hm).trans (h.step_of_ne m hm)
  worker_of_ne m hm := (h'.worker_of_ne m hm).trans (h.worker_of_ne m hm)
  step step hs := by
    obtain ⟨step', hs', hname, haction⟩ := h.step step hs
    obtain ⟨step'', hs'', hname', haction'⟩ := h'.step step' hs'
    exact ⟨step'', hs'', hname'.trans hname, haction'.trans haction⟩

end Frame

variable {r : Run μ σ} {name : String} {step : Step μ}

theorem frame_setPhase (r : Run μ σ) (name : String) (phase : Phase μ) :
    Frame name r (r.setPhase name phase) :=
  { Frame.refl name r with worker_of_ne := fun _ hm => Table.get?_modify_of_ne _ hm _ }

/-- Slots, the world and the list of calls play no role for the rest. -/
theorem frame_aside (r : Run μ σ) (name : String) (slots : Slots) (world : σ)
    (calls : List (String × Status)) : Frame name r { r with slots, world, calls } :=
  { Frame.refl name r with }

theorem frame_cancel (r : Run μ σ) (name : String) : Frame name r { r with cancelled := true } :=
  { Frame.refl name r with cancelled := fun _ => rfl }

theorem frame_setStep (hs : r.step? name = some step) (hname : step.name = name) {step' : Step μ}
    (hname' : step'.name = step.name) (haction : step'.action = step.action) :
    Frame name r (r.setStep step') := by
  have hkey : step'.name = name := hname'.trans hname
  refine { Frame.refl name r with step_of_ne := fun m hm => ?_, step := fun old hold => ?_ }
  · rw [step?_setStep, if_neg (hkey ▸ hm)]
  · rw [hs] at hold
    cases hold
    refine ⟨step', ?_, hname', haction⟩
    rw [← hkey] at hs ⊢
    exact step?_setStep_self hs

theorem frame_emit (r : Run μ σ) (name : String) (event : Event) :
    Frame name r (r.emit event).1 :=
  { Frame.refl name r with journal := List.suffix_cons _ _ }

/-! ## Setting a status -/

/-- The sink heard of the status of a step unless it was the same before. -/
def Told (r s : Run μ σ) (name : String) (old new : Status) : Prop :=
  s.journal = if old = new then r.journal else r.journal.record r.now (.stepChanged name new r.now)

/-- What setting the status of a step does. -/
structure Sets (r : Run μ σ) (name : String) (step : Step μ) (status : Status) (s : Run μ σ)
    (broke : Bool) : Prop where
  frame : Frame name r s
  workers : s.workers = r.workers
  calls : s.calls = r.calls
  cancelled : s.cancelled = r.cancelled
  told : Told r s name step.status status
  stands : s.status? name = some status
  whenBroke : broke = true → step.status ≠ status ∧ r.plan.sink.breaksAt s.journal = true
  whenSound : broke = false → step.status = status ∨ r.plan.sink.breaksAt s.journal = false

theorem sets_setStatus (hs : r.step? name = some step) (hname : step.name = name)
    (status : Status) :
    Sets r name step status (r.setStatus name status).1 (r.setStatus name status).2 := by
  by_cases h : step.status = status
  · have heq : r.setStatus name status = (r, false) := by
      simp only [setStatus, hs, if_pos h]
    rw [heq]
    exact
      { frame := Frame.refl name r
        workers := rfl
        calls := rfl
        cancelled := rfl
        told := by rw [Told, if_pos h]
        stands := by rw [status?_eq_some hs, h]
        whenBroke := nofun
        whenSound := fun _ => .inl h }
  · have heq : r.setStatus name status =
        (r.setStep { step with status, lastUpdated := r.now }).emit
          (.stepChanged name status r.now) := by
      simp only [setStatus, hs, if_neg h]
    rw [heq]
    have hself : (r.setStep { step with status, lastUpdated := r.now }).step? name =
        some { step with status, lastUpdated := r.now } := by
      subst hname
      exact step?_setStep_self hs
    have hframe : Frame name r (r.setStep { step with status, lastUpdated := r.now }) :=
      frame_setStep hs hname rfl rfl
    exact
      { frame := hframe.trans (frame_emit _ _ _)
        workers := rfl
        calls := rfl
        cancelled := rfl
        told := by
          rw [Told, if_neg h]
          rfl
        stands := status?_eq_some hself
        whenBroke := fun hb => ⟨h, hb⟩
        whenSound := .inr }

/-! ## Turns -/

/-- What a turn of a worker makes of its step and of its phase, between two runs. -/
inductive Effect (r s : Run μ σ) (name : String) (step : Step μ) (phase : Phase μ)
    (status : Status) (phase' : Phase μ) : Prop where
  /-- The worker waits for its next call. -/
  | waits (waiting : phase'.isWaiting = true) (same : status = step.status)
      (journal : s.journal = r.journal) (calls : s.calls = r.calls)
  /-- A call begins. -/
  | calls (before : phase = .queued)
      (after : phase' = .advancing (step.action.advance step.memo step.status))
      (same : status = step.status) (journal : s.journal = r.journal)
      (calls : s.calls = (name, step.status) :: r.calls)
  /-- The call goes on, and can end only as it could before. -/
  | carriesOn {job job' : Job (μ × Outcome)} (before : phase.job? = some job)
      (after : phase'.job? = some job') (ends : ∀ value, job'.EndsWith value → job.EndsWith value)
      (same : status = step.status) (journal : s.journal = r.journal) (calls : s.calls = r.calls)
  /-- The call has ended, or broke down, and the step has got the status that comes of it. The
  worker goes on unless the sink broke down over that. -/
  | concludes {job : Job (μ × Outcome)} {outcome : Outcome} (before : phase = .advancing job)
      (came : (∃ memo, job.EndsWith (memo, outcome)) ∨ ∃ message, outcome = .crash message)
      (new : status = outcome.status) (told : Told r s name step.status status)
      (calls : s.calls = r.calls)
      (after : phase' = .deciding ∧ (step.status = status ∨ r.plan.sink.breaksAt s.journal = false) ∨
        phase' = .finished false ∧ step.status ≠ status ∧ r.plan.sink.breaksAt s.journal = true)
  /-- The step is done, and with it the worker. -/
  | ends (before : phase = .deciding) (done : step.status.isDone = true)
      (after : phase' = .finished step.status.isOk) (same : status = step.status)
      (journal : s.journal = r.journal) (calls : s.calls = r.calls)
  /-- The worker has heard that the run was called off. -/
  | interrupted (heard : r.cancelled = true) (after : phase' = .finished false)
      (new : status = .cancelled (some "interrupted"))
      (told : Told r s name step.status status) (calls : s.calls = r.calls)

namespace Effect

variable {s : Run μ σ} {phase phase' : Phase μ} {status : Status}

theorem told (h : Effect r s name step phase status phase') :
    Told r s name step.status status := by
  cases h with
  | waits _ same journal _ => rw [Told, if_pos same.symm, journal]
  | calls _ _ same journal _ => rw [Told, if_pos same.symm, journal]
  | carriesOn _ _ _ same journal _ => rw [Told, if_pos same.symm, journal]
  | concludes _ _ _ told _ _ => exact told
  | ends _ _ _ same journal _ => rw [Told, if_pos same.symm, journal]
  | interrupted _ _ _ told _ => exact told

/-- A worker ends well when the step did, and badly when the step did not end well or the sink broke
down. -/
theorem of_finished {ok : Bool} (h : Effect r s name step phase status (.finished ok)) :
    ok = true ∧ status.isOk = true ∨
      ok = false ∧ (status.isDone = true ∧ status.isOk = false ∨
        step.status ≠ status ∧ r.plan.sink.breaksAt s.journal = true) := by
  cases h with
  | waits waiting _ _ _ => cases waiting
  | calls _ after _ _ _ => cases after
  | carriesOn _ after _ _ _ _ => cases after
  | concludes _ _ _ _ _ after =>
    rcases after with ⟨after, -⟩ | ⟨after, hne, hbreaks⟩
    · cases after
    · cases after
      exact .inr ⟨rfl, .inr ⟨hne, hbreaks⟩⟩
  | ends _ done after same _ _ =>
    cases after
    subst same
    cases hok : step.status.isOk with
    | true => exact .inl ⟨rfl, rfl⟩
    | false => exact .inr ⟨rfl, .inl ⟨done, rfl⟩⟩
  | interrupted _ after new _ _ =>
    cases after
    subst new
    exact .inr ⟨rfl, .inl ⟨rfl, rfl⟩⟩

/-- A worker whose sink breaks down ends badly. -/
theorem of_breaks (h : Effect r s name step phase status phase') (hne : step.status ≠ status)
    (hbreaks : r.plan.sink.breaksAt s.journal = true) : phase' = .finished false := by
  cases h with
  | waits _ same _ _ => exact absurd same.symm hne
  | calls _ _ same _ _ => exact absurd same.symm hne
  | carriesOn _ _ _ same _ _ => exact absurd same.symm hne
  | concludes _ _ _ _ _ after =>
    rcases after with ⟨-, same | quiet⟩ | ⟨after, -, -⟩
    · exact absurd same hne
    · rw [hbreaks] at quiet
      cases quiet
    · exact after
  | ends _ _ _ same _ _ => exact absurd same.symm hne
  | interrupted _ after _ _ _ => exact after

end Effect

/-- A turn of the worker of a step. -/
structure Turn (r s : Run μ σ) (name : String) (phase : Phase μ) (step : Step μ) : Prop where
  frame : Frame name r s
  effect : ∃ attempt phase' status, s.workers.get? name = some ⟨attempt, phase'⟩ ∧
    s.status? name = some status ∧ Effect r s name step phase status phase'

/-- Two runs in which a turn that sets a status would do the same. -/
structure Alike (name : String) (r s : Run μ σ) (step step' : Step μ) : Prop where
  frame : Frame name r s
  workers : s.workers = r.workers
  journal : s.journal = r.journal
  clock : s.clock = r.clock
  calls : s.calls = r.calls
  found : s.step? name = some step'
  named : step'.name = name
  status : step'.status = step.status

theorem alike_refl (hs : r.step? name = some step) (hname : step.name = name) :
    Alike name r r step step :=
  ⟨Frame.refl name r, rfl, rfl, rfl, rfl, hs, hname, rfl⟩

theorem alike_aside (hs : r.step? name = some step) (hname : step.name = name) (slots : Slots)
    (world : σ) : Alike name r { r with slots, world } step step :=
  ⟨frame_aside r name slots world r.calls, rfl, rfl, rfl, rfl, hs, hname, rfl⟩

/-- The memo of a step is of no concern to anyone but its action. -/
theorem alike_setMemo (hs : r.step? name = some step) (hname : step.name = name) (memo : μ) :
    Alike name r (r.setMemo name memo) step { step with memo } := by
  have hself : (r.setStep { step with memo }).step? name = some { step with memo } := by
    subst hname
    exact step?_setStep_self hs
  simp only [setMemo, hs]
  exact ⟨frame_setStep hs hname rfl rfl, rfl, rfl, rfl, rfl, hself, hname, rfl⟩

theorem Alike.told {s t : Run μ σ} {step' : Step μ} (h : Alike name r s step step')
    {status : Status} (ht : Told s t name step'.status status) :
    Told r t name step.status status := by
  rw [Told, h.status, h.journal, now, h.clock] at ht
  exact ht

variable {worker : Worker μ}

theorem worker_setPhase (hw : r.workers.get? name = some worker) (phase : Phase μ) :
    (r.setPhase name phase).workers.get? name = some { worker with phase } :=
  Table.get?_modify_self hw _

theorem turn_interrupt {s : Run μ σ} {step' : Step μ} (hw : r.workers.get? name = some worker)
    (h : Alike name r s step step') (hc : r.cancelled = true) :
    Turn r (s.interrupt name) name worker.phase step := by
  have hsets := sets_setStatus h.found h.named (.cancelled (some "interrupted"))
  have hw' := worker_setPhase (hsets.workers ▸ h.workers ▸ hw) (.finished false)
  exact
    { frame := h.frame.trans (hsets.frame.trans (frame_setPhase _ _ _))
      effect := ⟨_, _, _, hw', hsets.stands,
        .interrupted hc rfl rfl (h.told hsets.told) (hsets.calls.trans h.calls)⟩ }

theorem turn_endCall {s : Run μ σ} {step' : Step μ} (hw : r.workers.get? name = some worker)
    (h : Alike name r s step step') {job : Job (μ × Outcome)} {outcome : Outcome}
    (hphase : worker.phase = .advancing job)
    (came : (∃ memo, job.EndsWith (memo, outcome)) ∨ ∃ message, outcome = .crash message) :
    Turn r (s.endCall name outcome) name worker.phase step := by
  have hsets := sets_setStatus h.found h.named outcome.status
  have hw' := hsets.workers ▸ h.workers ▸ hw
  have hsink := h.frame.sink
  rw [endCall]
  generalize s.setStatus name outcome.status = pair at hsets hw'
  obtain ⟨t, broke⟩ := pair
  have htold := h.told hsets.told
  have hcalls := hsets.calls.trans h.calls
  have hframe : Frame name t
      { t with
        slots := t.slots.release
        workers := t.workers.modify name fun w =>
          if broke then { w with phase := .finished false } else ⟨w.attempt + 1, .deciding⟩ } :=
    { Frame.refl name t with worker_of_ne := fun _ hm => Table.get?_modify_of_ne _ hm _ }
  refine ⟨h.frame.trans (hsets.frame.trans hframe), ?_⟩
  cases broke with
  | true =>
    obtain ⟨hne, hbreaks⟩ := hsets.whenBroke rfl
    rw [h.status] at hne
    rw [hsink] at hbreaks
    exact ⟨_, _, _, Table.get?_modify_self hw' _, hsets.stands,
      .concludes hphase came rfl htold hcalls (.inr ⟨rfl, hne, hbreaks⟩)⟩
  | false =>
    have hquiet := hsets.whenSound rfl
    rw [h.status, hsink] at hquiet
    exact ⟨_, _, _, Table.get?_modify_self hw' _, hsets.stands,
      .concludes hphase came rfl htold hcalls (.inl ⟨rfl, hquiet⟩)⟩

/-- A turn that changes nothing of what matters but the phase of the worker. -/
theorem turn_setPhase (hw : r.workers.get? name = some worker) (hs : r.step? name = some step)
    {s : Run μ σ} (hframe : Frame name r s) (hworkers : s.workers = r.workers)
    (hsteps : s.step? name = r.step? name) {phase : Phase μ}
    (heffect : Effect r (s.setPhase name phase) name step worker.phase step.status phase) :
    Turn r (s.setPhase name phase) name worker.phase step where
  frame := hframe.trans (frame_setPhase s name phase)
  effect := ⟨_, _, _, worker_setPhase (hworkers ▸ hw) phase, status?_eq_some (hsteps.trans hs),
    heffect⟩

theorem turn_enqueue (hw : r.workers.get? name = some worker) (hs : r.step? name = some step) :
    Turn r (r.enqueue name) name worker.phase step :=
  turn_setPhase hw hs (frame_aside r name (r.slots.enter name) r.world r.calls) rfl rfl
    (.waits rfl rfl rfl rfl)

theorem turn_decide (hw : r.workers.get? name = some worker) (hs : r.step? name = some step)
    (hname : step.name = name) (hphase : worker.phase = .deciding) (attempt : Nat) :
    Turn r (r.decide name attempt) name worker.phase step := by
  simp only [decide, hs]
  split
  · next hdone =>
    exact turn_setPhase hw hs (Frame.refl name r) rfl rfl (.ends hphase hdone rfl rfl rfl rfl)
  · split
    · next hc => exact turn_interrupt hw (alike_refl hs hname) hc
    · refine turn_setPhase hw hs (Frame.refl name r) rfl rfl (.waits ?_ rfl rfl rfl)
      split <;> rfl

theorem turn_call (hw : r.workers.get? name = some worker) (hs : r.step? name = some step)
    (hphase : worker.phase = .queued) : Turn r (r.call name) name worker.phase step := by
  simp only [call, hs]
  exact turn_setPhase hw hs
    (frame_aside r name (r.slots.take name) r.world ((name, step.status) :: r.calls)) rfl rfl
    (.calls hphase rfl rfl rfl rfl)

theorem turn_advance (provider : Provider σ) (hw : r.workers.get? name = some worker)
    (hs : r.step? name = some step) (hname : step.name = name) {job : Job (μ × Outcome)}
    (hphase : worker.phase = .advancing job) :
    Turn r (r.advance provider name job) name worker.phase step := by
  cases job with
  | done value =>
    obtain ⟨memo, outcome⟩ := value
    exact turn_endCall hw (alike_setMemo hs hname memo) hphase (.inl ⟨memo, .done (memo, outcome)⟩)
  | ask request next =>
    rw [advance]
    generalize provider.respond r.world request = reply
    obtain ⟨world, result | message⟩ := reply
    · exact turn_setPhase hw hs (frame_aside r name r.slots world r.calls) rfl rfl
        (.carriesOn (congrArg Phase.job? hphase) rfl (fun value => .ask result) rfl rfl rfl)
    · exact turn_endCall hw (alike_aside hs hname r.slots world) hphase (.inr ⟨message, rfl⟩)
  | pause ms next =>
    exact turn_setPhase hw hs (Frame.refl name r) rfl rfl
      (.carriesOn (congrArg Phase.job? hphase) rfl (fun value => .pause) rfl rfl rfl)
  | callOff next =>
    exact turn_setPhase hw hs (frame_cancel r name) rfl rfl
      (.carriesOn (congrArg Phase.job? hphase) rfl (fun value => .callOff) rfl rfl rfl)

/-- Whatever a worker does next is a turn of it. -/
theorem turn_of_work? {provider : Provider σ} {s : Run μ σ}
    (hw : r.workers.get? name = some worker) (hs : r.step? name = some step)
    (hname : step.name = name) (h : r.work? provider name = some s) :
    Turn r s name worker.phase step := by
  simp only [work?, hw] at h
  cases hphase : worker.phase with
  | deciding =>
    simp only [hphase, Option.some.injEq] at h
    subst h
    exact hphase ▸ turn_decide hw hs hname hphase _
  | yielding =>
    simp only [hphase, Option.some.injEq] at h
    subst h
    rw [← hphase]
    split
    · next hc => exact turn_interrupt hw (alike_refl hs hname) hc
    · exact turn_enqueue hw hs
  | sleeping wake =>
    simp only [hphase, Option.ite_none_right_eq_some, Option.some.injEq] at h
    obtain ⟨-, rfl⟩ := h
    exact hphase ▸ turn_enqueue hw hs
  | queued =>
    simp only [hphase, Option.ite_none_right_eq_some, Option.some.injEq] at h
    obtain ⟨-, rfl⟩ := h
    exact hphase ▸ turn_call hw hs hphase
  | advancing job =>
    simp only [hphase, Option.some.injEq] at h
    subst h
    exact hphase ▸ turn_advance provider hw hs hname hphase
  | pausing wake job =>
    simp only [hphase, Option.ite_none_right_eq_some, Option.some.injEq] at h
    obtain ⟨-, rfl⟩ := h
    rw [← hphase]
    exact turn_setPhase hw hs (Frame.refl name r) rfl rfl
      (.carriesOn (congrArg Phase.job? hphase) rfl (fun _ => id) rfl rfl rfl)
  | finished ok =>
    simp only [hphase] at h
    cases h

theorem not_finished_of_work? {provider : Provider σ} {s : Run μ σ}
    (hw : r.workers.get? name = some worker) (h : r.work? provider name = some s) (ok : Bool) :
    worker.phase ≠ .finished ok := by
  intro hphase
  simp only [work?, hw, hphase] at h
  cases h

theorem turn_of_stop? {s : Run μ σ} (hw : r.workers.get? name = some worker)
    (hs : r.step? name = some step) (hname : step.name = name) (h : r.stop? name = some s) :
    worker.phase.isListening = true ∧ Turn r s name worker.phase step := by
  simp only [stop?, hw, Option.ite_none_right_eq_some, Bool.and_eq_true, Option.some.injEq] at h
  obtain ⟨⟨hc, hlistens⟩, rfl⟩ := h
  exact ⟨hlistens, turn_interrupt hw (alike_aside hs hname _ r.world) hc⟩

/-! ## Moves -/

/-- What a move makes of a run. -/
inductive Moved (r : Run μ σ) (move : Move) (s : Run μ σ) : Prop where
  /-- Time passed, or the run was called off. -/
  | passed (plan : s.plan = r.plan) (walk : s.walk = r.walk) (workers : s.workers = r.workers)
      (journal : s.journal = r.journal) (calls : s.calls = r.calls) (broken : s.broken = r.broken)
      (cancelled : r.cancelled = true → s.cancelled = true)
  /-- A worker went on. -/
  | turned {name : String} {worker : Worker μ} {step : Step μ}
      (working : r.workers.get? name = some worker) (found : r.step? name = some step)
      (mover : move = .work name ∨ worker.phase.isListening = true)
      (active : ∀ ok, worker.phase ≠ .finished ok)
      (turn : Turn r s name worker.phase step)
  /-- The walk took the end of a worker. -/
  | settled {name : String} {attempt : Nat} {ok : Bool}
      (finished : r.workers.get? name = some ⟨attempt, .finished ok⟩)
      (after : s = staff { r with
        workers := r.workers.erase name, walk := r.walk.settle name ok })

/-- Every move of a run whose workers have steps is one of these. -/
theorem moved_of_move? {provider : Provider σ} {move : Move} {s : Run μ σ}
    (hsteps : ∀ name worker, r.workers.get? name = some worker →
      ∃ step, r.step? name = some step ∧ step.name = name)
    (h : r.move? provider move = some s) : Moved r move s := by
  cases move with
  | wait nanos =>
    cases h
    exact .passed rfl rfl rfl rfl rfl rfl id
  | cancel =>
    cases h
    exact .passed rfl rfl rfl rfl rfl rfl fun _ => rfl
  | work name =>
    cases hw : r.workers.get? name with
    | none => simp [move?, work?, hw] at h
    | some worker =>
      obtain ⟨step, hs, hname⟩ := hsteps name worker hw
      exact .turned hw hs (.inl rfl) (not_finished_of_work? hw h) (turn_of_work? hw hs hname h)
  | stop name =>
    cases hw : r.workers.get? name with
    | none => simp [move?, stop?, hw] at h
    | some worker =>
      obtain ⟨step, hs, hname⟩ := hsteps name worker hw
      obtain ⟨hlistens, hturn⟩ := turn_of_stop? hw hs hname h
      refine .turned hw hs (.inr hlistens) (fun ok hphase => ?_) hturn
      rw [hphase] at hlistens
      cases hlistens
  | settle name =>
    simp only [move?, settle?] at h
    split at h
    · next attempt ok hw =>
      cases h
      exact .settled hw rfl
    · cases h

/-- The run after some moves in a row, if each is possible. -/
def play (provider : Provider σ) (moves : List Move) (r : Run μ σ) : Option (Run μ σ) :=
  moves.foldlM (fun s move => s.move? provider move) r

theorem steps_of_play {provider : Provider σ} {moves : List Move} {r s : Run μ σ}
    (h : r.play provider moves = some s) : Steps provider r s := by
  have key : ∀ (moves : List Move) (q : Run μ σ), Steps provider r q →
      q.play provider moves = some s → Steps provider r s := by
    intro moves
    induction moves with
    | nil =>
      intro q hq h
      cases h
      exact hq
    | cons move moves ih =>
      intro q hq h
      rw [play, List.foldlM_cons, Option.bind_eq_bind, Option.bind_eq_some_iff] at h
      obtain ⟨t, ht, h⟩ := h
      exact ih t (.tail move hq ht) h
  exact key moves r (.refl r) h

end Run

/-- The run that a plan comes to by some moves in a row, if each is possible. -/
def Plan.plays (p : Plan μ) (provider : Provider σ) (walker : Walker) (world : σ)
    (moves : List Move) : Option (Run μ σ) :=
  match p.begin walker world false with
  | .ok start => start.play provider moves
  | .error _ => none

theorem Plan.reaches_of_plays {p : Plan μ} {provider : Provider σ} {walker : Walker} {world : σ}
    {moves : List Move} {run : Run μ σ} (h : p.plays provider walker world moves = some run) :
    p.Reaches provider walker world run := by
  rw [plays] at h
  split at h
  · next start hstart => exact ⟨false, start, hstart, Run.steps_of_play h⟩
  · cases h

/-- A run that has played all its moves ends with its report. -/
theorem Plan.ends_of_plays {p : Plan μ} {provider : Provider σ} {walker : Walker} {world : σ}
    {moves : List Move} {last : Run μ σ} {report : PlanReport}
    (h : p.plays provider walker world moves = some last)
    (hdone : (last.isOver && last.workers.isEmpty) = true) (hreport : last.finish.2 = some report) :
    p.Ends provider walker world last.finish.1 report :=
  ⟨last, reaches_of_plays h, Bool.and_eq_true_iff.1 hdone, Prod.ext rfl hreport⟩

/-! ### Without waiting -/

/-- A policy whose longest wait is none never waits. -/
theorem PollPolicy.baseDelay_of_maxInterval {poll : PollPolicy} (h : poll.maxInterval = 0)
    (attempt : Nat) : poll.baseDelay attempt = 0 := by
  rw [baseDelay, h]
  simp only [Nat.min_zero, ite_self]

namespace Run

/-- The worker of a step that is not done decides how to go on, and will not wait. -/
def goesOnAtOnce (r : Run μ σ) (name : String) : Bool :=
  (match r.workers.get? name with
    | some ⟨_, .deciding⟩ => true
    | _ => false) &&
  r.stepIs name (!·.isDone) && !r.cancelled && r.plan.poll.maxInterval == 0

theorem work?_of_goesOnAtOnce {provider : Provider σ} {r : Run μ σ} {name : String}
    (h : r.goesOnAtOnce name = true) :
    r.work? provider name = some (r.setPhase name .yielding) := by
  rw [goesOnAtOnce, Bool.and_eq_true, Bool.and_eq_true, Bool.and_eq_true, beq_iff_eq] at h
  obtain ⟨⟨⟨hworker, hopen⟩, hcancelled⟩, hpoll⟩ := h
  split at hworker
  · next attempt hw =>
    rw [stepIs] at hopen
    split at hopen
    · next step hs =>
      rw [work?, hw]
      simp only [decide, hs, Bool.not_eq_true', Bool.eq_false_iff] at hopen hcancelled ⊢
      rw [if_neg hopen, if_neg hcancelled, if_pos (PollPolicy.baseDelay_of_maxInterval hpoll _)]
    · cases hopen
  · cases hworker

theorem play_append {provider : Provider σ} {moves moves' : List Move} {r s : Run μ σ}
    (h : r.play provider moves = some s) :
    r.play provider (moves ++ moves') = s.play provider moves' := by
  rw [play, List.foldlM_append, show moves.foldlM _ r = some s from h]
  rfl

end Run

/-- Some moves, after which a worker decides to go on at once, and some more. -/
theorem Plan.plays_of_goesOnAtOnce {p : Plan μ} {provider : Provider σ} {walker : Walker}
    {world : σ} {moves moves' : List Move} {mid last : Run μ σ} {name : String}
    (h : p.plays provider walker world moves = some mid) (hgoes : mid.goesOnAtOnce name = true)
    (h' : (mid.setPhase name .yielding).play provider moves' = some last) :
    p.plays provider walker world (moves ++ .work name :: moves') = some last := by
  rw [plays] at h ⊢
  split at h
  · rw [Run.play_append h, Run.play, List.foldlM_cons]
    show (Run.work? provider mid name).bind _ = _
    rw [Run.work?_of_goesOnAtOnce hgoes]
    exact h'
  · cases h

namespace Run

/-- The run after a move, if the move is possible. It is not worked out how long a worker would wait
that goes on at once. -/
def moveAtOnce? (provider : Provider σ) (r : Run μ σ) : Move → Option (Run μ σ)
  | .work name =>
    if r.goesOnAtOnce name then some (r.setPhase name .yielding) else r.work? provider name
  | move => r.move? provider move

theorem moveAtOnce?_eq (provider : Provider σ) (r : Run μ σ) (move : Move) :
    r.moveAtOnce? provider move = r.move? provider move := by
  cases move with
  | work name =>
    show (if r.goesOnAtOnce name then _ else _) = r.work? provider name
    split
    · next hgoes => rw [work?_of_goesOnAtOnce hgoes]
    · rfl
  | wait | cancel | stop | settle => rfl

end Run

/-- The run that a plan comes to by some moves in a row, without working out any wait of workers
that go on at once. -/
def Plan.playsAtOnce (p : Plan μ) (provider : Provider σ) (walker : Walker) (world : σ)
    (moves : List Move) : Option (Run μ σ) :=
  match p.begin walker world false with
  | .ok start => moves.foldlM (fun s move => s.moveAtOnce? provider move) start
  | .error _ => none

theorem Plan.playsAtOnce_eq (p : Plan μ) (provider : Provider σ) (walker : Walker) (world : σ)
    (moves : List Move) :
    p.playsAtOnce provider walker world moves = p.plays provider walker world moves := by
  unfold playsAtOnce plays Run.play
  simp only [Run.moveAtOnce?_eq]

end Rollout

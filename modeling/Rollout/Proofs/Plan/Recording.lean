import Rollout.Proofs.Plan.Closing
import Rollout.Proofs.Provider.Submissions

/-!
# What a run asks

A provider that notes what it is asked answers like the one behind it, so every run goes on in the
same way when its requests are noted.

* `Run.inWorld`: a run in the world of another provider.
* `Run.move?_noted`, `Plan.Reaches.recorded`, `Plan.Ends.recorded`: noting requests changes nothing
  else.
* `Plan.Reaches.preserves`: what requests leave true of the world of the provider.
-/

namespace Rollout

variable {μ σ τ : Type}

namespace Run

/-- The run in another world. -/
def inWorld (r : Run μ σ) (world : τ) : Run μ τ where
  plan := r.plan
  walk := r.walk
  workers := r.workers
  slots := r.slots
  world := world
  cancelled := r.cancelled
  broken := r.broken
  clock := r.clock
  journal := r.journal
  calls := r.calls

variable (r : Run μ σ) (world : τ) (name : String)

theorem setStatus_inWorld (status : Status) :
    (r.inWorld world).setStatus name status =
      ((r.setStatus name status).1.inWorld world, (r.setStatus name status).2) := by
  have hstep : (r.inWorld world).step? name = r.step? name := rfl
  rw [setStatus, setStatus, hstep]
  cases r.step? name with
  | none => rfl
  | some step =>
    simp only
    split <;> rfl

theorem interrupt_inWorld :
    (r.inWorld world).interrupt name = (r.interrupt name).inWorld world := by
  rw [interrupt, interrupt, setStatus_inWorld]
  rfl

theorem decide_inWorld (attempt : Nat) :
    (r.inWorld world).decide name attempt = (r.decide name attempt).inWorld world := by
  have hstep : (r.inWorld world).step? name = r.step? name := rfl
  rw [decide, decide, hstep]
  cases r.step? name with
  | none => rfl
  | some step =>
    simp only
    split
    · rfl
    · rw [show (r.inWorld world).cancelled = r.cancelled from rfl, interrupt_inWorld]
      split <;> rfl

theorem call_inWorld : (r.inWorld world).call name = (r.call name).inWorld world := by
  have hstep : (r.inWorld world).step? name = r.step? name := rfl
  rw [call, call, hstep]
  cases r.step? name <;> rfl

theorem endCall_inWorld (outcome : Outcome) :
    (r.inWorld world).endCall name outcome = (r.endCall name outcome).inWorld world := by
  rw [endCall, endCall, setStatus_inWorld]
  rfl

theorem setMemo_inWorld (memo : μ) :
    (r.inWorld world).setMemo name memo = (r.setMemo name memo).inWorld world := by
  have hstep : (r.inWorld world).step? name = r.step? name := rfl
  rw [setMemo, setMemo, hstep]
  cases r.step? name <;> rfl

theorem stop?_inWorld :
    (r.inWorld world).stop? name = (r.stop? name).map (·.inWorld world) := by
  have hworkers : (r.inWorld world).workers = r.workers := rfl
  rw [stop?, stop?, hworkers]
  cases r.workers.get? name with
  | none => rfl
  | some worker =>
    simp only [show (r.inWorld world).cancelled = r.cancelled from rfl]
    split
    · exact congrArg some (interrupt_inWorld { r with slots := r.slots.leave name } world name)
    · rfl

theorem settle?_inWorld :
    (r.inWorld world).settle? name = (r.settle? name).map (·.inWorld world) := by
  have hworkers : (r.inWorld world).workers = r.workers := rfl
  rw [settle?, settle?, hworkers]
  cases r.workers.get? name with
  | none => rfl
  | some worker =>
    obtain ⟨attempt, phase⟩ := worker
    cases phase <;> rfl

/-- The run with the requests of its world noted. -/
def noted (r : Run μ σ) (exchanges : List Exchange) : Run μ (Recorded σ) :=
  r.inWorld ⟨r.world, exchanges⟩

/-- What does not depend on the world leaves it alone. -/
theorem noted_of_inWorld {r s : Run μ σ} {exchanges : List Exchange} {t : Run μ (Recorded σ)}
    (h : t = s.inWorld ⟨r.world, exchanges⟩) (hworld : s = s.inWorld r.world) :
    t = s.noted exchanges := by
  rw [h, noted, hworld]
  rfl

variable {provider : Provider σ}

/-- The next thing that a call does is the same, and so is the world after it. -/
theorem advance_noted (job : Job (μ × Outcome)) (exchanges : List Exchange) :
    ∃ exchanges', (r.noted exchanges).advance provider.recorded name job =
      (r.advance provider name job).noted exchanges' := by
  cases job with
  | done value =>
    obtain ⟨memo, outcome⟩ := value
    have h : ∀ {τ : Type} (world : τ), ((r.inWorld world).setMemo name memo).endCall name outcome =
        ((r.setMemo name memo).endCall name outcome).inWorld world := fun world => by
      rw [setMemo_inWorld, endCall_inWorld]
    exact ⟨exchanges, noted_of_inWorld (h _) (h r.world)⟩
  | ask request next =>
    rw [advance, advance, show (r.noted exchanges).world = ⟨r.world, exchanges⟩ from rfl]
    cases hrespond : provider.respond r.world request with
    | mk world reply =>
      have hnoted : provider.recorded.respond ⟨r.world, exchanges⟩ request = _ :=
        Provider.respond_recorded hrespond
      refine ⟨⟨request, reply⟩ :: exchanges, ?_⟩
      rw [hnoted]
      cases reply with
      | answer result => rfl
      | crash message =>
        have h : ∀ {τ : Type} (after : τ), (inWorld { r with world } after).endCall name
            (.crash message) = (endCall { r with world } name (.crash message)).inWorld after :=
          fun after => endCall_inWorld _ after name _
        exact noted_of_inWorld (r := { r with world }) (h _) (h world)
  | pause ms next => exact ⟨exchanges, rfl⟩
  | callOff next => exact ⟨exchanges, rfl⟩

theorem work?_noted {s : Run μ σ} (h : r.work? provider name = some s)
    (exchanges : List Exchange) :
    ∃ exchanges', (r.noted exchanges).work? provider.recorded name = some (s.noted exchanges') := by
  have hworkers : (r.noted exchanges).workers = r.workers := rfl
  rw [work?] at h
  rw [work?, hworkers]
  cases hw : r.workers.get? name with
  | none =>
    rw [hw] at h
    cases h
  | some worker =>
    simp only [hw] at h
    simp only
    cases hphase : worker.phase with
    | deciding =>
      simp only [hphase, Option.some.injEq] at h ⊢
      subst h
      have h : ∀ {τ : Type} (world : τ), (r.inWorld world).decide name worker.attempt =
          (r.decide name worker.attempt).inWorld world := fun world => decide_inWorld r world name _
      exact ⟨exchanges, noted_of_inWorld (h _) (h r.world)⟩
    | yielding =>
      simp only [hphase, Option.some.injEq] at h ⊢
      subst h
      have h : ∀ {τ : Type} (world : τ),
          (if (r.inWorld world).cancelled then (r.inWorld world).interrupt name
            else (r.inWorld world).enqueue name) =
          (if r.cancelled then r.interrupt name else r.enqueue name).inWorld world :=
        fun world => by
          rw [show (r.inWorld world).cancelled = r.cancelled from rfl, interrupt_inWorld]
          split <;> rfl
      exact ⟨exchanges, noted_of_inWorld (h _) (h r.world)⟩
    | sleeping wake =>
      simp only [hphase, Option.ite_none_right_eq_some, Option.some.injEq] at h ⊢
      obtain ⟨hwake, rfl⟩ := h
      exact ⟨exchanges, hwake, rfl⟩
    | queued =>
      simp only [hphase, Option.ite_none_right_eq_some, Option.some.injEq] at h ⊢
      obtain ⟨hgrants, rfl⟩ := h
      have h : ∀ {τ : Type} (world : τ),
          (r.inWorld world).call name = (r.call name).inWorld world :=
        fun world => call_inWorld r world name
      exact ⟨exchanges, hgrants, noted_of_inWorld (h _) (h r.world)⟩
    | advancing job =>
      simp only [hphase, Option.some.injEq] at h ⊢
      subst h
      exact advance_noted r name job exchanges
    | pausing wake job =>
      simp only [hphase, Option.ite_none_right_eq_some, Option.some.injEq] at h ⊢
      obtain ⟨hwake, rfl⟩ := h
      exact ⟨exchanges, hwake, rfl⟩
    | finished ok =>
      simp only [hphase] at h
      cases h

/-- A part of a run that only changes the run and not the world goes on in the same way. -/
theorem map_noted {f : ∀ {τ : Type}, Run μ τ → Option (Run μ τ)}
    (hf : ∀ {τ : Type} (world : τ), f (r.inWorld world) = (f r).map (·.inWorld world))
    {s : Run μ σ} (h : f r = some s) (exchanges : List Exchange) :
    f (r.noted exchanges) = some (s.noted exchanges) := by
  have hworld := hf r.world
  rw [show f (r.inWorld r.world) = f r from rfl, h, Option.map_some] at hworld
  rw [noted, hf, h, Option.map_some]
  exact congrArg some (noted_of_inWorld rfl (Option.some.inj hworld))

/-- Every move is possible as before. -/
theorem move?_noted {s : Run μ σ} {move : Move} (h : r.move? provider move = some s)
    (exchanges : List Exchange) :
    ∃ exchanges', (r.noted exchanges).move? provider.recorded move = some (s.noted exchanges') := by
  cases move with
  | wait nanos =>
    cases h
    exact ⟨exchanges, rfl⟩
  | cancel =>
    cases h
    exact ⟨exchanges, rfl⟩
  | work name => exact work?_noted r name h exchanges
  | stop name =>
    exact ⟨exchanges, map_noted r (f := fun r => r.stop? name)
      (fun world => stop?_inWorld r world name) h exchanges⟩
  | settle name =>
    exact ⟨exchanges, map_noted r (f := fun r => r.settle? name)
      (fun world => settle?_inWorld r world name) h exchanges⟩

/-! ## The beginning and the end -/

section

variable {r : Run μ σ} {world : τ}

theorem announce_inWorld (event : Event) :
    (r.inWorld world).announce event = (r.announce event).inWorld world := by
  rw [announce, announce, show (r.inWorld world).broken = r.broken from rfl]
  split <;> rfl

theorem assign_inWorld (name : String) (status : Status) :
    (r.inWorld world).assign name status = (r.assign name status).inWorld world := by
  rw [assign, assign, show (r.inWorld world).broken = r.broken from rfl, setStatus_inWorld]
  split <;> rfl

theorem closeFailed_inWorld (name : String) :
    (r.inWorld world).closeFailed name = (r.closeFailed name).inWorld world := by
  rw [closeFailed, closeFailed, assign_inWorld,
    show (r.inWorld world).stepIs name (!·.isDone) = r.stepIs name (!·.isDone) from rfl]
  split <;> rfl

theorem foldl_inWorld {f : ∀ {τ : Type}, Run μ τ → String → Run μ τ}
    (hf : ∀ (r : Run μ σ) name, f (r.inWorld world) name = (f r name).inWorld world)
    (names : List String) : names.foldl f (r.inWorld world) = (names.foldl f r).inWorld world := by
  induction names generalizing r with
  | nil => rfl
  | cons name names ih => rw [List.foldl_cons, List.foldl_cons, hf, ih]

theorem close_inWorld : (r.inWorld world).close = r.close.inWorld world := by
  have hfailed : r.walk.report.failed.foldl closeFailed (r.inWorld world) =
      (r.walk.report.failed.foldl closeFailed r).inWorld world :=
    foldl_inWorld (f := closeFailed) (fun _ _ => closeFailed_inWorld _) _
  rw [close, close, show (r.inWorld world).walk = r.walk from rfl, hfailed]
  generalize r.walk.report.failed.foldl closeFailed r = mid
  have hblocked : ∀ (s : Run μ σ) name, closeBlocked mid.failures (s.inWorld world) name =
      (closeBlocked mid.failures s name).inWorld world := fun s name => assign_inWorld name _
  exact foldl_inWorld (f := closeBlocked mid.failures) hblocked mid.walk.report.blocked

theorem finish_inWorld :
    (r.inWorld world).finish = (r.finish.1.inWorld world, r.finish.2) := by
  rw [finish, finish, close_inWorld, announce_inWorld]
  rfl

end

end Run

open Run

theorem Plan.begin_inWorld {p : Plan μ} {walker : Walker} {world : σ} {cancelled : Bool}
    {start : Run μ σ} (h : p.begin walker world cancelled = .ok start) (other : τ) :
    p.begin walker other cancelled = .ok (start.inWorld other) := by
  rw [Plan.begin] at h ⊢
  split at h
  · cases h
  · next hnew =>
    rw [if_neg hnew]
    cases h
    have hprepare : prepare { p with executed := true } walker other cancelled =
        (prepare { p with executed := true } walker world cancelled).inWorld other := rfl
    simp only [hprepare, announce_inWorld]
    generalize Run.announce (prepare _ walker world cancelled) _ = r
    rw [show (r.inWorld other).broken = r.broken from rfl]
    split <;> rfl

variable {p : Plan μ} {provider : Provider σ} {walker : Walker} {world : σ} {run : Run μ σ}

/-- What every request leaves true of the world of the provider, a run leaves true. -/
theorem Plan.Reaches.preserves (hp : p.graph.Sound) (h : p.Reaches provider walker world run)
    {P : σ → Prop} (hrespond : ∀ world request, P world → P (provider.respond world request).1)
    (hworld : P world) : P run.world := by
  obtain ⟨cancelled, start, hbegin, hsteps⟩ := h
  obtain ⟨hsound, -⟩ := Plan.sound_begin hp hbegin
  have hreply : ∀ {world after : σ} {request : Request} {reply : Reply request.Answer},
      provider.respond world request = (after, reply) → P world → P after :=
    fun {world _ request _} hreplied hbefore => by
      have hafter := hrespond world request hbefore
      rwa [hreplied] at hafter
  induction hsteps with
  | refl =>
    obtain ⟨r, -, -, -, rfl, -, -, rfl⟩ := Plan.begin_eq_ok hbegin
    split <;> exact hworld
  | tail move before next ih =>
    cases strode_of_move? (fun _ _ hw => (hsound.steps before).exists_step hw) next with
    | passed _ _ _ world _ => exact world ▸ ih
    | turned _ _ _ stride =>
      cases stride with
      | rests _ _ world _ _ _ => exact world ▸ ih
      | begins _ _ _ world _ _ => exact world ▸ ih
      | goesOn _ _ _ world _ _ => exact world ▸ ih
      | asks _ _ replied _ _ => exact hreply replied ih
      | returns _ _ world _ _ _ => exact world ▸ ih
      | crashes _ _ replied _ _ _ => exact hreply replied ih
    | settled _ after =>
      rw [after]
      exact ih

theorem Plan.Ends.preserves (hp : p.graph.Sound) {report : PlanReport}
    (h : p.Ends provider walker world run report) {P : σ → Prop}
    (hrespond : ∀ world request, P world → P (provider.respond world request).1)
    (hworld : P world) : P run.world := by
  obtain ⟨last, hreaches, hlast⟩ := h.exists_reaches
  rw [hlast]
  exact hreaches.preserves hp hrespond hworld

/-- What a plan can come to it can come to with its requests noted. -/
theorem Plan.Reaches.recorded (h : p.Reaches provider walker world run) :
    ∃ exchanges, p.Reaches provider.recorded walker ⟨world, []⟩ (run.noted exchanges) := by
  obtain ⟨cancelled, start, hbegin, hsteps⟩ := h
  have hworld : start.world = world := by
    obtain ⟨r, -, -, -, hworld, -, -, rfl⟩ := Plan.begin_eq_ok hbegin
    split <;> exact hworld
  have hstart : p.begin walker ⟨world, []⟩ cancelled = .ok (start.noted []) := by
    rw [noted, hworld]
    exact Plan.begin_inWorld hbegin _
  induction hsteps with
  | refl => exact ⟨[], cancelled, _, hstart, .refl _⟩
  | tail move before next ih =>
    obtain ⟨exchanges, cancelled', start', hbegin', hsteps'⟩ := ih
    obtain ⟨exchanges', hnext⟩ := move?_noted _ next exchanges
    exact ⟨exchanges', cancelled', start', hbegin', .tail move hsteps' hnext⟩

/-- So it is with how a plan ends. -/
theorem Plan.Ends.recorded {report : PlanReport} (h : p.Ends provider walker world run report) :
    ∃ exchanges, p.Ends provider.recorded walker ⟨world, []⟩ (run.noted exchanges) report := by
  obtain ⟨last, hreaches, hdone, hfinish⟩ := h
  obtain ⟨exchanges, hnoted⟩ := hreaches.recorded
  refine ⟨exchanges, last.noted exchanges, hnoted, hdone, ?_⟩
  have hworld : run.world = last.world := by rw [← Run.world_finish last, hfinish]
  rw [noted, finish_inWorld, hfinish, noted, hworld]

end Rollout

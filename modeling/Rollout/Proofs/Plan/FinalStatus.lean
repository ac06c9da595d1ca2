import Rollout.Proofs.Plan.Chronicle
import Rollout.Proofs.Plan.Outcome

/-!
# Failures, interruptions and what is behind them

A plan begins with pending steps, its actions do not call themselves off, and its sink is sound.
Then the last statuses tell failures and interruptions apart, whenever the run was called off: a
step has failed by a call of its own action or because it is behind such a step, and it is cancelled
because the run was.

* `Plan.Plain`: such a plan. `Plan.plain_of_calls`: it is enough to look at single calls.
* `Run.CameOfCall`: a status is what a call of the step's own action ended with.
* `Run.Clear` and `Run.Clear.move`: the invariant of its runs.
* `Run.PlainEnd`: what that leaves to be known of the last run.
* `Plan.Plain.tells`: the last statuses and the outcome.
-/

namespace Rollout

variable {μ σ : Type}

/-- All steps are pending, no action ever says of its step that it was cancelled, and the sink breaks
down over nothing. -/
structure Plan.Plain (p : Plan μ) : Prop where
  built : p.graph.Built
  pending : ∀ name step, p.graph.get? name = some step → step.status = .pending
  /-- However often the action of a step was called, each call given what the one before has left, and
  whatever these calls were answered, it has not come to a cancellation. -/
  uncancelled : ∀ name step, p.graph.get? name = some step → ∀ calls memo status,
    step.action.Ran step.memo step.status calls memo status → status.isCancelled = false
  sound : ∀ journal, p.sink.breaksAt journal = false

/-- It is enough if no single call makes a cancellation of a status that is not done. Other statuses
are given to no call. -/
theorem Plan.plain_of_calls {p : Plan μ} (built : p.graph.Built)
    (pending : ∀ name step, p.graph.get? name = some step → step.status = .pending)
    (calls : ∀ name step, p.graph.get? name = some step → ∀ memo status value,
      status.isDone = false → (step.action.advance memo status).EndsWith value →
        value.2.status.isCancelled = false)
    (sound : ∀ journal, p.sink.breaksAt journal = false) : p.Plain where
  built := built
  pending := pending
  uncancelled := by
    intro name step hs _ memo status hran
    cases hran with
    | none =>
      rw [pending name step hs]
      rfl
    | returned _ isOpen went => exact calls name step hs _ _ _ isOpen (went.endsWith (.done _))
    | crashed _ _ _ _ => rfl
  sound := sound

namespace Run

variable {p : Plan μ} {provider : Provider σ} {walker : Walker} {world : σ} {r s : Run μ σ}
  {name : String}

/-- At some moment of the run a call of the action of the step ended, and the status is what came of
it. -/
def CameOfCall (p : Plan μ) (provider : Provider σ) (walker : Walker) (world : σ) (r : Run μ σ)
    (name : String) (status : Status) : Prop :=
  ∃ before after attempt job outcome, p.Reaches provider walker world before ∧
    before.workers.get? name = some ⟨attempt, .advancing job⟩ ∧
    ((∃ memo, job.EndsWith (memo, outcome)) ∨ ∃ message, outcome = .crash message) ∧
    outcome.status = status ∧ before.move? provider (.work name) = some after ∧
    after.status? name = some status ∧ Steps provider after r

theorem CameOfCall.move {status : Status} (h : r.CameOfCall p provider walker world name status)
    {move : Move} (next : r.move? provider move = some s) :
    s.CameOfCall p provider walker world name status := by
  obtain ⟨before, after, attempt, job, outcome, hbefore, hw, came, heq, hmove, hafter, hsteps⟩ := h
  exact ⟨before, after, attempt, job, outcome, hbefore, hw, came, heq, hmove, hafter,
    hsteps.tail move next⟩

/-- Why the steps of a run stand where they stand. -/
structure Clear (p : Plan μ) (provider : Provider σ) (walker : Walker) (world : σ) (r : Run μ σ) :
    Prop where
  /-- A step is cancelled because the run was called off. -/
  cancelled : ∀ name status, r.status? name = some status → status.isCancelled = true →
    status = .cancelled (some "interrupted") ∧ r.cancelled = true
  /-- A step has failed by a call of its own action. -/
  failed : ∀ name status, r.status? name = some status → status.isFailed = true →
    r.CameOfCall p provider walker world name status

/-- A call of an action of the plan does not end with a cancellation. -/
theorem not_cancelled_of_came (hp : p.Plain) (hreaches : p.Reaches provider walker world r)
    {worker : Worker μ} {job : Job (μ × Outcome)} (hw : r.workers.get? name = some worker)
    (hphase : worker.phase = .advancing job) {outcome : Outcome}
    (came : (∃ memo, job.EndsWith (memo, outcome)) ∨ ∃ message, outcome = .crash message) :
    outcome.status.isCancelled = false := by
  rcases came with ⟨memo, hends⟩ | ⟨message, rfl⟩
  · have hjob : r.job? name = some job := by
      rw [job?_of_worker hw, hphase]
      rfl
    obtain ⟨first, _, _, _, _, hfirst, hran, hopen, hwent⟩ :=
      hreaches.exists_call hp.built.sound hjob
    obtain ⟨_, hdone⟩ := hwent.exists_done hends
    exact hp.uncancelled name first hfirst _ _ _ (.returned hran hopen hdone)
  · rfl

/-- A turn leaves the status of the step as it was, or it was interrupted, or a call has ended. -/
theorem Turn.status_cases (hp : p.Plain)
    (hreaches : p.Reaches provider walker world r) {move : Move}
    (next : r.move? provider move = some s) {worker : Worker μ} {step : Step μ}
    (hw : r.workers.get? name = some worker)
    (mover : move = .work name ∨ worker.phase.isListening = true)
    (turn : Turn r s name worker.phase step) :
    ∃ status, s.status? name = some status ∧
      (status = step.status ∨ status = .cancelled (some "interrupted") ∧ r.cancelled = true ∨
        status.isCancelled = false ∧ s.CameOfCall p provider walker world name status) := by
  obtain ⟨-, attempt, phase', status, hw', hstatus, heffect⟩ := turn
  refine ⟨status, hstatus, ?_⟩
  cases heffect with
  | waits _ same _ _ => exact .inl same
  | calls _ _ same _ _ => exact .inl same
  | carriesOn _ _ _ same _ _ => exact .inl same
  | concludes hphase came new _ _ _ =>
    refine .inr (.inr ⟨new ▸ not_cancelled_of_came hp hreaches hw hphase came, ?_⟩)
    -- A worker inside of a call does not listen, so this was its own move.
    have hmove : move = .work name := by
      rcases mover with hmove | hlistens
      · exact hmove
      · rw [hphase] at hlistens
        cases hlistens
    obtain ⟨attempt, phase⟩ := worker
    subst hphase
    exact ⟨r, s, attempt, _, _, hreaches, hw, came, new.symm, hmove ▸ next, hstatus, .refl s⟩
  | ends _ _ _ same _ _ => exact .inl same
  | interrupted heard _ new _ _ => exact .inr (.inl ⟨new, heard⟩)

theorem Clear.turned (hp : p.Plain) (hc : r.Clear p provider walker world)
    (hreaches : p.Reaches provider walker world r) {move : Move}
    (next : r.move? provider move = some s) {worker : Worker μ} {step : Step μ}
    (hw : r.workers.get? name = some worker) (hs : r.step? name = some step)
    (mover : move = .work name ∨ worker.phase.isListening = true)
    (turn : Turn r s name worker.phase step) : s.Clear p provider walker world := by
  obtain ⟨status, hstatus, hnew⟩ := turn.status_cases hp hreaches next hw mover
  have hframe := turn.frame
  have hold := status?_eq_some (r := r) hs
  refine ⟨fun m found hm hcancelled => ?_, fun m found hm hfailed => ?_⟩
  · by_cases hmn : m = name
    · subst hmn
      obtain rfl : status = found := Option.some.inj (hstatus.symm.trans hm)
      rcases hnew with rfl | ⟨rfl, hcancel⟩ | ⟨hnot, -⟩
      · obtain ⟨heq, hcancel⟩ := hc.cancelled m _ hold hcancelled
        exact ⟨heq, hframe.cancelled hcancel⟩
      · exact ⟨rfl, hframe.cancelled hcancel⟩
      · rw [hnot] at hcancelled
        cases hcancelled
    · rw [status?_of_frame hframe hmn] at hm
      obtain ⟨heq, hcancel⟩ := hc.cancelled m found hm hcancelled
      exact ⟨heq, hframe.cancelled hcancel⟩
  · by_cases hmn : m = name
    · subst hmn
      obtain rfl : status = found := Option.some.inj (hstatus.symm.trans hm)
      rcases hnew with rfl | ⟨rfl, -⟩ | ⟨-, hcame⟩
      · exact (hc.failed m _ hold hfailed).move next
      · cases hfailed
      · exact hcame
    · rw [status?_of_frame hframe hmn] at hm
      exact (hc.failed m found hm hfailed).move next

theorem Clear.move (hp : p.Plain) (hc : r.Clear p provider walker world)
    (hreaches : p.Reaches provider walker world r) {move : Move}
    (next : r.move? provider move = some s) : s.Clear p provider walker world := by
  have hr := hreaches.sound hp.built.sound
  have hquiet : (∀ m, s.status? m = r.status? m) → (r.cancelled = true → s.cancelled = true) →
      s.Clear p provider walker world := fun hstatus hcancelled =>
    { cancelled := fun m status hm h => by
        rw [hstatus] at hm
        obtain ⟨heq, hcancel⟩ := hc.cancelled m status hm h
        exact ⟨heq, hcancelled hcancel⟩
      failed := fun m status hm h => by
        rw [hstatus] at hm
        exact (hc.failed m status hm h).move next }
  cases moved_of_move? (fun _ _ hw => hr.exists_step hw) next with
  | passed plan _ _ _ _ _ cancelled =>
    exact hquiet (fun m => by rw [status?, status?, step?, step?, plan]) cancelled
  | turned working found mover _ turn =>
    exact hc.turned hp hreaches next working found mover turn
  | settled _ after =>
    exact hquiet (fun m => by rw [after]; rfl) fun h => by
      rw [after]
      exact h

/-- Every run of such a plan is clear. -/
theorem clear_of_reaches (hp : p.Plain) (h : p.Reaches provider walker world r) :
    r.Clear p provider walker world := by
  obtain ⟨cancelled, start, hbegin, hsteps⟩ := h
  obtain ⟨-, hgraph, -, -⟩ := Plan.sound_begin hp.built.sound hbegin
  have hstart : ∀ name status, start.status? name = some status → status = .pending := by
    intro name status hs
    obtain ⟨step, hstep, rfl⟩ := exists_step_of_status? hs
    rw [step?, hgraph] at hstep
    exact hp.pending name step hstep
  induction hsteps with
  | refl =>
    refine ⟨fun m status hm hcancelled => ?_, fun m status hm hfailed => ?_⟩
    · rw [hstart m status hm] at hcancelled
      cases hcancelled
    · rw [hstart m status hm] at hfailed
      cases hfailed
  | tail move before next ih =>
    exact ih.move hp ⟨cancelled, start, hbegin, before⟩ next

end Run

/-! ## Last statuses -/

/-- The step depends, directly or not, on one that the walk saw fail and that has failed. -/
def Plan.BehindFailure (p : Plan μ) (run : Run μ σ) (report : PlanReport) (name : String) : Prop :=
  ∃ m ∈ report.walk.failed, p.graph.dag.Path name m ∧ run.stepIs m Status.isFailed = true

/-- What a report says of a plan that is plain. `last` is the run just before it was closed. -/
structure Plan.Tells (p : Plan μ) (provider : Provider σ) (walker : Walker) (world : σ)
    (last run : Run μ σ) (report : PlanReport) : Prop where
  completed : ∀ n ∈ report.walk.completed, run.stepIs n Status.isOk = true
  /-- A failed step failed by itself, or it was interrupted. -/
  failed : ∀ n ∈ report.walk.failed, ∃ status, run.status? n = some status ∧
    (status.isFailed = true ∧ last.CameOfCall p provider walker world n status ∨
      status = .cancelled (some "interrupted"))
  /-- A blocked step has failed if it is behind a step that failed by itself. -/
  behind : ∀ n ∈ report.walk.blocked, p.BehindFailure run report n →
    run.status? n = some (.failed (some "dependency has failed"))
  /-- Else it is interrupted. -/
  notBehind : ∀ n ∈ report.walk.blocked, ¬ p.BehindFailure run report n →
    run.status? n = some (.cancelled (some "interrupted"))
  outcome_failed_iff : report.outcome = .failed ↔
    ∃ n ∈ report.walk.failed, run.stepIs n Status.isFailed = true
  outcome_interrupted_iff : report.outcome = .interrupted ↔
    (¬ ∃ n ∈ report.walk.failed, run.stepIs n Status.isFailed = true) ∧
      ∃ n ∈ p.graph.dag.nodes, run.stepIs n Status.isCancelled = true
  outcome_success_iff : report.outcome = .success ↔
    (¬ ∃ n ∈ report.walk.failed, run.stepIs n Status.isFailed = true) ∧
      ¬ ∃ n ∈ p.graph.dag.nodes, run.stepIs n Status.isCancelled = true
  /-- Steps are cancelled only in runs that were called off. -/
  cancelled : ∀ n, run.stepIs n Status.isCancelled = true → run.cancelled = true

/-- What is known of a run of a plain plan at its end. -/
structure Run.PlainEnd (p : Plan μ) (provider : Provider σ) (walker : Walker) (world : σ)
    (last run : Run μ σ) (report : PlanReport) : Prop where
  plain : p.Plain
  sound : last.Sound p
  clear : last.Clear p provider walker world
  finished : Finished last run report
  final : run.Final

namespace Run.PlainEnd

variable {p : Plan μ} {provider : Provider σ} {walker : Walker} {world : σ} {last run : Run μ σ}
  {report : PlanReport} (h : PlainEnd p provider walker world last run report)
include h

theorem walk_eq : report.walk = last.walk.report := by
  rw [h.finished.report]
  exact congrArg Walk.report h.finished.walk

/-- A failed step keeps the status its worker left, which is no good one. -/
theorem exists_status_of_failed {n : String} (hn : n ∈ report.walk.failed) :
    ∃ status, last.status? n = some status ∧ run.status? n = some status ∧
      (status.isFailed = true ∨ status.isCancelled = true) := by
  rw [h.walk_eq] at hn
  obtain ⟨status, hstatus, ⟨hdone, hnot⟩ | hbroke⟩ := h.sound.unwell n (.inr hn)
  · refine ⟨status, hstatus, ?_, ((Status.isDone_iff status).1 hdone).resolve_left ?_⟩
    · rw [h.finished.closed.failed n hn, hstatus, Option.map_some, lastFailed, if_pos hdone]
    · rw [hnot]
      exact Bool.false_ne_true
  · obtain ⟨_, _, _, _, hbreaks⟩ := hbroke
    rw [h.sound.sink, h.plain.sound] at hbreaks
    cases hbreaks

theorem stepIs_not_cancelled {m : String} (hm : m ∈ report.walk.failed) :
    run.stepIs m (!·.isCancelled) = run.stepIs m Status.isFailed := by
  obtain ⟨status, -, hrun, hbad⟩ := h.exists_status_of_failed hm
  rw [stepIs_of_status? hrun, stepIs_of_status? hrun]
  rcases hbad with hbad | hbad
  · rw [hbad, Status.not_isCancelled_of_isFailed hbad, Bool.not_false]
  · rw [hbad, Status.not_isFailed_of_isCancelled hbad, Bool.not_true]

theorem behind_iff (n : String) :
    (∃ m ∈ last.walk.report.failed, last.plan.graph.dag.Path n m ∧
      run.stepIs m (!·.isCancelled) = true) ↔ p.BehindFailure run report n := by
  rw [h.sound.dag, Plan.BehindFailure, h.walk_eq]
  refine exists_congr fun m => and_congr_right fun hm => ?_
  rw [h.stepIs_not_cancelled (h.walk_eq ▸ hm)]

theorem status?_of_behind {n : String} (hn : n ∈ report.walk.blocked)
    (hb : p.BehindFailure run report n) :
    run.status? n = some (.failed (some "dependency has failed")) :=
  h.finished.closed.behind n (h.walk_eq ▸ hn) ((h.behind_iff n).2 hb)

/-- What a blocked step is behind has not ended well. If none of it failed, the run was called
off. -/
theorem status?_of_not_behind {n : String} (hn : n ∈ report.walk.blocked)
    (hb : ¬ p.BehindFailure run report n) :
    last.cancelled = true ∧ run.status? n = some (.cancelled (some "interrupted")) := by
  have hn' := h.walk_eq ▸ hn
  obtain ⟨m, hpath, hm⟩ := (h.sound.walk.blocked_iff n).1 hn'
  rw [h.sound.walkDag] at hpath
  rw [← h.walk_eq] at hm
  obtain ⟨status, hstatus, hrun, hbad | hbad⟩ := h.exists_status_of_failed hm
  · exact absurd ⟨m, hm, hpath, (stepIs_of_status? hrun _).trans hbad⟩ hb
  · obtain ⟨-, hcancel⟩ := h.clear.cancelled m status hstatus hbad
    refine ⟨hcancel, ?_⟩
    rw [h.finished.closed.notBehind n hn' fun hb' => hb ((h.behind_iff n).1 hb'), hcancel,
      if_pos rfl]

theorem not_bad_of_completed {n : String} (hn : n ∈ report.walk.completed) :
    run.stepIs n Status.isFailed = false ∧ run.stepIs n Status.isCancelled = false := by
  rw [h.finished.report] at hn
  obtain ⟨status, hrun, hok⟩ := stepIs_eq_true_iff.1 (h.final.completed n hn)
  rw [stepIs_of_status? hrun, stepIs_of_status? hrun]
  exact ((Status.isOk_iff status).1 hok).2

theorem dag_eq : run.plan.graph.dag = p.graph.dag := h.finished.dag.trans h.sound.dag

theorem mem_nodes_iff (n : String) :
    n ∈ p.graph.dag.nodes ↔
      n ∈ report.walk.completed ∨ n ∈ report.walk.failed ∨ n ∈ report.walk.blocked := by
  rw [← h.dag_eq, h.final.mem_nodes_iff, h.finished.report]
  rfl

/-- If any step has failed, then some step has failed by itself. -/
theorem exists_failed_iff :
    (∃ n ∈ p.graph.dag.nodes, run.stepIs n Status.isFailed = true) ↔
      ∃ n ∈ report.walk.failed, run.stepIs n Status.isFailed = true := by
  constructor
  · rintro ⟨n, hn, hfailed⟩
    rcases (h.mem_nodes_iff n).1 hn with hn | hn | hn
    · rw [(h.not_bad_of_completed hn).1] at hfailed
      cases hfailed
    · exact ⟨n, hn, hfailed⟩
    · by_cases hb : p.BehindFailure run report n
      · obtain ⟨m, hm, -, hself⟩ := hb
        exact ⟨m, hm, hself⟩
      · rw [stepIs_of_status? (h.status?_of_not_behind hn hb).2] at hfailed
        cases hfailed
  · rintro ⟨n, hn, hfailed⟩
    exact ⟨n, (h.mem_nodes_iff n).2 (.inr (.inl hn)), hfailed⟩

theorem cancelled_of_stepIs {n : String} (hn : run.stepIs n Status.isCancelled = true) :
    run.cancelled = true := by
  obtain ⟨status, hrun, hcancelled⟩ := stepIs_eq_true_iff.1 hn
  have hnode : n ∈ p.graph.dag.nodes := by
    obtain ⟨step, hstep, -⟩ := exists_step_of_status? hrun
    exact h.dag_eq ▸ (h.final.graph.mem_nodes_iff n).2 ⟨step, hstep⟩
  rw [h.finished.cancelled]
  rcases (h.mem_nodes_iff n).1 hnode with hn' | hn' | hn'
  · rw [(h.not_bad_of_completed hn').2] at hn
    cases hn
  · obtain ⟨status', hlast, hrun', -⟩ := h.exists_status_of_failed hn'
    obtain rfl : status = status' := Option.some.inj (hrun.symm.trans hrun')
    exact (h.clear.cancelled n status hlast hcancelled).2
  · by_cases hb : p.BehindFailure run report n
    · rw [stepIs_of_status? (h.status?_of_behind hn' hb)] at hn
      cases hn
    · exact (h.status?_of_not_behind hn' hb).1

end Run.PlainEnd

/-- Whenever a plain plan was called off, if ever, and whatever the schedule, its report tells
failures and interruptions apart. -/
theorem Plan.Plain.tells {p : Plan μ} (hp : p.Plain) {provider : Provider σ} {walker : Walker}
    {world : σ} {last run : Run μ σ} {report : PlanReport}
    (reached : p.Reaches provider walker world last) (done : last.IsDone)
    (finish : last.finish = (run, some report)) :
    p.Tells provider walker world last run report := by
  have hlast := reached.sound hp.built.sound
  have hend : Run.PlainEnd p provider walker world last run report :=
    { plain := hp
      sound := hlast
      clear := Run.clear_of_reaches hp reached
      finished := hlast.finished finish
      final := Plan.Ends.final hp.built.sound ⟨last, reached, done, finish⟩ }
  have hany := fun property => Run.any_report hend.final.graph property
  simp only [hend.dag_eq, ← hend.finished.report] at hany
  have houtcome : report.outcome = .ofSteps report.steps := by
    rw [hend.finished.report]
    rfl
  exact
    { completed := fun n hn => by
        rw [hend.finished.report] at hn
        exact hend.final.completed n hn
      failed := fun n hn => by
        obtain ⟨status, hlast, hrun, hbad | hbad⟩ := hend.exists_status_of_failed hn
        · exact ⟨status, hrun, .inl ⟨hbad, hend.clear.failed n status hlast hbad⟩⟩
        · exact ⟨status, hrun, .inr (hend.clear.cancelled n status hlast hbad).1⟩
      behind := fun n hn => hend.status?_of_behind hn
      notBehind := fun n hn hb => (hend.status?_of_not_behind hn hb).2
      outcome_failed_iff := by
        rw [← hend.exists_failed_iff, ← hany, houtcome]
        exact PlanOutcome.ofSteps_eq_failed_iff
      outcome_interrupted_iff := by
        rw [← hend.exists_failed_iff, ← hany, ← hany, Bool.not_eq_true, houtcome]
        exact PlanOutcome.ofSteps_eq_interrupted_iff
      outcome_success_iff := by
        rw [← hend.exists_failed_iff, ← hany, ← hany, Bool.not_eq_true, Bool.not_eq_true, houtcome]
        exact PlanOutcome.ofSteps_eq_success_iff
      cancelled := fun n hn => hend.cancelled_of_stepIs hn }

/-! ## A step behind a failure -/

theorem Plan.plain_pair {status : Status} (hstatus : status.isCancelled = false)
    (poll : PollPolicy) : (Plan.pair status poll).Plain := by
  refine Plan.plain_of_calls (.ofSteps (Plan.ofSteps_pair status poll)) (fun name step hs => ?_)
    (fun name step hs memo given value _ hends => ?_) fun _ => rfl
  · have hmem := Plan.mem_pair_of_get? hs
    rw [Step.pair, List.mem_cons, List.mem_singleton] at hmem
    rcases hmem with rfl | rfl <;> rfl
  · have hmem := Plan.mem_pair_of_get? hs
    rw [Step.pair, List.mem_cons, List.mem_singleton] at hmem
    rcases hmem with rfl | rfl
    · cases hends
      exact hstatus
    · cases hends
      rfl

theorem Plan.plays_pair_failed (poll : PollPolicy) :
    ((Plan.pair (.failed none) poll).plays .idle .sequential ()
      [.work "first", .work "first", .work "first", .work "first", .work "first",
        .settle "first"]).any (fun last =>
      last.isOver && last.workers.isEmpty && last.finish.2.any fun report =>
        report.walk = { failed := ["first"], blocked := ["second"] } &&
          last.finish.1.stepIs "first" Status.isFailed) = true := by
  cbv

/-- A step that requires one that fails has failed too, and so has the plan. -/
theorem Plan.tells_pair_failed :
    ∃ (last run : Run Unit Unit) (report : PlanReport), last.finish = (run, some report) ∧
      run.status? "second" = some (.failed (some "dependency has failed")) ∧
      report.outcome = .failed := by
  obtain ⟨last, hlast, h⟩ := (Option.any_eq_true _ _).1 (Plan.plays_pair_failed .standard)
  rw [Bool.and_eq_true, Bool.and_eq_true, Option.any_eq_true] at h
  obtain ⟨⟨hover, hworkers⟩, report, hreport, h⟩ := h
  rw [Bool.and_eq_true, decide_eq_true_eq] at h
  obtain ⟨hwalk, hfailed⟩ := h
  have hfinish : last.finish = (last.finish.1, some report) := Prod.ext rfl hreport
  have htells := Plan.Plain.tells (Plan.plain_pair rfl .standard) (Plan.reaches_of_plays hlast)
    ⟨hover, hworkers⟩ hfinish
  have hfirst : "first" ∈ report.walk.failed := by
    rw [hwalk]
    exact List.mem_singleton_self _
  have hsecond : "second" ∈ report.walk.blocked := by
    rw [hwalk]
    exact List.mem_singleton_self _
  exact ⟨last, _, report, hfinish,
    htells.behind "second" hsecond ⟨"first", hfirst, Plan.path_pair _ _, hfailed⟩,
    htells.outcome_failed_iff.2 ⟨"first", hfirst, hfailed⟩⟩

end Rollout

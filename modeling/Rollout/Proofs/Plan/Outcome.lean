import Rollout.Proofs.Plan.Build
import Rollout.Proofs.Plan.Closing

/-!
# The outcome of a plan

What is reported when a plan has been carried out, in terms of where its steps ended up.

* `Run.Final` and `Plan.Ends.final`: how the steps stand at the end, whatever the actions and the
  sink do.
* `Run.Final.success_iff_walk`: what a success says of the walk.
* `Plan.outcome_agrees_iff`: when the outcome and the report of the walk tell the same.
-/

namespace Rollout

variable {μ σ : Type}

namespace Status

theorem isDone_iff (status : Status) :
    status.isDone = true ↔
      status.isOk = true ∨ status.isFailed = true ∨ status.isCancelled = true := by
  cases status <;> simp [isDone, isOk, isFailed, isCancelled]

theorem isOk_iff (status : Status) :
    status.isOk = true ↔
      status.isDone = true ∧ status.isFailed = false ∧ status.isCancelled = false := by
  cases status <;> simp [isDone, isOk, isFailed, isCancelled]

theorem not_isOk_of_not_isDone {status : Status} (h : status.isDone = false) :
    status.isOk = false := by
  cases status with
  | complete _ => cases h
  | skipped _ => cases h
  | _ => rfl

theorem not_isCancelled_of_not_isDone {status : Status} (h : status.isDone = false) :
    status.isCancelled = false := by
  cases status with
  | cancelled _ => cases h
  | _ => rfl

theorem not_isCancelled_of_isFailed {status : Status} (h : status.isFailed = true) :
    status.isCancelled = false := by
  cases status with
  | failed _ => rfl
  | _ => cases h

theorem not_isFailed_of_isCancelled {status : Status} (h : status.isCancelled = true) :
    status.isFailed = false := by
  cases status with
  | cancelled _ => rfl
  | _ => cases h

end Status

/-! ## Outcomes of lists of steps -/

theorem PlanOutcome.ofSteps_eq_failed_iff {lines : List Snapshot} :
    PlanOutcome.ofSteps lines = .failed ↔ lines.any (·.status.isFailed) = true := by
  rw [PlanOutcome.ofSteps]
  split
  · next h => simp only [h]
  · next h =>
    split
    · simp only [h, reduceCtorEq]
    · simp only [h, reduceCtorEq]

theorem PlanOutcome.ofSteps_eq_interrupted_iff {lines : List Snapshot} :
    PlanOutcome.ofSteps lines = .interrupted ↔
      lines.any (·.status.isFailed) = false ∧ lines.any (·.status.isCancelled) = true := by
  rw [PlanOutcome.ofSteps]
  cases lines.any (·.status.isFailed) <;> cases lines.any (·.status.isCancelled) <;> simp

theorem PlanOutcome.ofSteps_eq_success_iff {lines : List Snapshot} :
    PlanOutcome.ofSteps lines = .success ↔
      lines.any (·.status.isFailed) = false ∧ lines.any (·.status.isCancelled) = false := by
  rw [PlanOutcome.ofSteps]
  cases lines.any (·.status.isFailed) <;> cases lines.any (·.status.isCancelled) <;> simp

namespace Run

/-- Some line of the report has a property when some step of the graph has it. -/
theorem any_report {r : Run μ σ} (hg : r.plan.graph.Sound) (property : Status → Bool) :
    r.report.steps.any (fun line => property line.status) = true ↔
      ∃ name ∈ r.plan.graph.dag.nodes, r.stepIs name property = true := by
  refine (Plan.any_snapshot hg property).trans (exists_congr fun name => and_congr_right fun _ => ?_)
  rw [stepIs_eq_true_iff]
  constructor
  · rintro ⟨step, hs, h⟩
    exact ⟨step.status, status?_eq_some hs, h⟩
  · rintro ⟨status, hs, h⟩
    obtain ⟨step, hstep, rfl⟩ := exists_step_of_status? hs
    exact ⟨step, hstep, h⟩

/-! ## How steps stand at the end -/

/-- How the steps of a finished run stand. -/
structure Final (s : Run μ σ) : Prop where
  graph : s.plan.graph.Sound
  /-- The walk ended every visit. -/
  perm : s.walk.report.settled.Perm s.plan.graph.dag.nodes
  completed : ∀ n ∈ s.walk.report.completed, s.stepIs n Status.isOk = true
  /-- A step whose worker ended badly is done. -/
  failed : ∀ n ∈ s.walk.report.failed, s.stepIs n Status.isDone = true
  /-- It did not end well, unless the sink broke down over a status that is well. -/
  failed_ok_iff : ∀ n, n ∈ s.walk.report.failed ∧ s.stepIs n Status.isOk = true ↔
    ∃ status, status.isOk = true ∧ s.BrokeOver n status
  blocked : ∀ n ∈ s.walk.report.blocked,
    ∃ status, s.status? n = some status ∧ status.isDone = true ∧ status.isOk = false
  /-- Blocked is what depends on a failed step, directly or not. -/
  blocked_iff : ∀ n, n ∈ s.walk.report.blocked ↔
    ∃ m ∈ s.walk.report.failed, s.plan.graph.dag.Path n m

end Run

namespace Run

variable {p : Plan μ} {last run : Run μ σ} {report : PlanReport} {n : String}

theorem isDone_lastFailed (status : Status) : (lastFailed status).isDone = true := by
  rw [lastFailed]
  split
  · next h => exact h
  · rfl

/-- A step that is made to fail at the end was not done before. -/
theorem lastFailed_of_isOk {status : Status} (h : (lastFailed status).isOk = true) :
    lastFailed status = status := by
  rw [lastFailed] at h ⊢
  split at h
  · next hdone => rw [if_pos hdone]
  · cases h

/-- When the walk is over it has taken the end of every worker. -/
theorem EndedWith.visited {ok : Bool} (h : last.EndedWith n ok) (hlast : last.Sound p)
    (hdone : last.IsDone) : n ∈ last.walk.report.visited ok := by
  refine h.resolve_left fun ⟨attempt, hw⟩ => ?_
  have hflight := (hlast.staffed n).2 ⟨_, hw⟩
  rw [List.isEmpty_iff.1 hdone.1] at hflight
  exact List.not_mem_nil hflight

/-- When the walk is over every visit has ended, in one of two ways. -/
theorem exists_visited (hlast : last.Sound p) (hdone : last.IsDone)
    (hn : n ∈ last.walk.dispatched) : ∃ ok, n ∈ last.walk.report.visited ok := by
  have hsettled : n ∈ last.walk.report.settled := by
    by_contra hnot
    have hflight := Walk.mem_inFlight_iff.2 ⟨hn, hnot⟩
    rw [List.isEmpty_iff.1 hdone.1] at hflight
    exact List.not_mem_nil hflight
  rcases Walk.mem_settled_iff.1 hsettled with hc | hf | hb
  · exact ⟨true, hc⟩
  · exact ⟨false, hf⟩
  · exact absurd hn (hlast.walk.not_mem_dispatched_of_blocked hb)

namespace Finished

variable (h : Finished last run report)
include h

/-- A blocked step has failed or was cancelled. -/
theorem exists_status_of_blocked (hn : n ∈ last.walk.report.blocked) :
    ∃ status, run.status? n = some status ∧ status.isDone = true ∧ status.isOk = false := by
  by_cases hbehind : ∃ m ∈ last.walk.report.failed, last.plan.graph.dag.Path n m ∧
      run.stepIs m (!·.isCancelled) = true
  · exact ⟨_, h.closed.behind n hn hbehind, rfl, rfl⟩
  · refine ⟨_, h.closed.notBehind n hn hbehind, ?_⟩
    cases last.cancelled <;> exact ⟨rfl, rfl⟩

variable (hlast : last.Sound p)
include hlast

theorem step?_of_completed (hn : n ∈ last.walk.report.completed) :
    run.step? n = last.step? n := by
  have hnot := hlast.walk.not_mem_of_completed hn
  rw [List.mem_append, not_or] at hnot
  exact h.closed.others n hnot.1 hnot.2

theorem stepIs_isOk_of_completed (hn : n ∈ last.walk.report.completed) :
    run.stepIs n Status.isOk = true := by
  obtain ⟨status, hstatus, hok⟩ := hlast.well n (.inr hn)
  refine stepIs_eq_true_iff.2 ⟨status, ?_, hok⟩
  rw [status?, h.step?_of_completed hlast hn]
  exact hstatus

/-- The status of a failed step when its worker ended, and the one it has got after that. -/
theorem exists_status_of_failed (hn : n ∈ last.walk.report.failed) :
    ∃ status, last.status? n = some status ∧ run.status? n = some (lastFailed status) ∧
      (status.isDone = true ∧ status.isOk = false ∨ last.BrokeOver n status) := by
  obtain ⟨status, hstatus, hreason⟩ := hlast.unwell n (.inr hn)
  refine ⟨status, hstatus, ?_, hreason⟩
  rw [h.closed.failed n hn, hstatus, Option.map_some]

/-- A failed step that is well is one over whose status the sink broke down. -/
theorem brokeOver_of_failed (hn : n ∈ last.walk.report.failed)
    (hok : run.stepIs n Status.isOk = true) :
    ∃ status, status.isOk = true ∧ run.BrokeOver n status := by
  obtain ⟨status, -, hrun, hreason⟩ := h.exists_status_of_failed hlast hn
  rw [stepIs_of_status? hrun] at hok
  rw [lastFailed_of_isOk hok] at hok
  rcases hreason with ⟨-, hnot⟩ | hbroke
  · rw [hok] at hnot
    cases hnot
  · exact ⟨status, hok, (h.brokeOver_iff n status).2 hbroke⟩

theorem failed_of_brokeOver (hdone : last.IsDone) {status : Status} (hok : status.isOk = true)
    (hbroke : run.BrokeOver n status) :
    n ∈ last.walk.report.failed ∧ run.stepIs n Status.isOk = true := by
  obtain ⟨hend, hstatus⟩ := hlast.broke n status ((h.brokeOver_iff n status).1 hbroke)
  have hn : n ∈ last.walk.report.failed := hend.visited hlast hdone
  obtain ⟨status', hstatus', hrun, -⟩ := h.exists_status_of_failed hlast hn
  obtain rfl : status = status' := Option.some.inj (hstatus.symm.trans hstatus')
  rw [lastFailed, if_pos ((Status.isDone_iff status).2 (.inl hok))] at hrun
  exact ⟨hn, (stepIs_of_status? hrun _).trans hok⟩

/-! ### Which steps were visited -/

theorem mem_settled (hdone : last.IsDone) (hn : n ∈ p.graph.dag.nodes) :
    n ∈ last.walk.report.settled := by
  have hperm := hlast.walk.settled_perm (hlast.saturated h.broken) hdone.1 hlast.cap
  rwa [hperm.mem_iff, hlast.walkDag]

/-- A step was visited when all that it depends on, directly or not, was completed. -/
theorem mem_dispatched_iff (hdone : last.IsDone) (hn : n ∈ p.graph.dag.nodes) :
    n ∈ last.walk.dispatched ↔
      ∀ m, p.graph.dag.Path n m → m ∈ last.walk.report.completed := by
  constructor
  · intro hd m hm
    rw [← hlast.walkDag] at hm
    exact hlast.walk.completed_of_path hd hm
  · intro hall
    rcases Walk.mem_settled_iff.1 (h.mem_settled hlast hdone hn) with hc | hf | hb
    · exact hlast.walk.ended_dispatched n (.inl hc)
    · exact hlast.walk.ended_dispatched n (.inr hf)
    · obtain ⟨m, hm, hf⟩ := (hlast.walk.blocked_iff n).1 hb
      rw [hlast.walkDag] at hm
      exact absurd hf (hlast.walk.not_mem_failed_of_completed (hall m hm))

/-- In a run that nobody called off, a step that was not visited has failed over what it depends
on. -/
theorem status?_of_not_dispatched (hdone : last.IsDone) (hcancelled : last.cancelled = false)
    (hn : n ∈ p.graph.dag.nodes) (hnot : n ∉ last.walk.dispatched) :
    run.status? n = some (.failed (some "dependency has failed")) := by
  have hblocked : n ∈ last.walk.report.blocked := by
    rcases Walk.mem_settled_iff.1 (h.mem_settled hlast hdone hn) with hc | hf | hb
    · exact absurd (hlast.walk.ended_dispatched n (.inl hc)) hnot
    · exact absurd (hlast.walk.ended_dispatched n (.inr hf)) hnot
    · exact hb
  by_cases hbehind : ∃ m ∈ last.walk.report.failed, last.plan.graph.dag.Path n m ∧
      run.stepIs m (!·.isCancelled) = true
  · exact h.closed.behind n hblocked hbehind
  · rw [h.closed.notBehind n hblocked hbehind, hcancelled]
    rfl

theorem status?_of_not_mem (hn : n ∉ p.graph.dag.nodes) : run.status? n = none := by
  cases hs : run.step? n with
  | none => rw [status?, hs, Option.map_none]
  | some step =>
    exact absurd (h.dag.trans hlast.dag ▸ (h.graph.mem_nodes_iff n).2 ⟨step, hs⟩) hn

end Finished

end Run

/-- The steps of a run with a report stand as they should. -/
theorem Plan.Ends.final {p : Plan μ} (hp : p.graph.Sound) {provider : Provider σ}
    {walker : Walker} {world : σ} {run : Run μ σ} {report : PlanReport}
    (h : p.Ends provider walker world run report) : run.Final := by
  obtain ⟨last, hreaches, hdone, hfinish⟩ := h
  have hlast := hreaches.sound hp
  have hend := hlast.finished hfinish
  exact
    { graph := hend.graph
      perm := by
        rw [hend.walk, hend.dag, hlast.dag, ← hlast.walkDag]
        exact hlast.walk.settled_perm (hlast.saturated hend.broken) hdone.1 hlast.cap
      completed := fun n hn => by
        rw [hend.walk] at hn
        exact hend.stepIs_isOk_of_completed hlast hn
      failed := fun n hn => by
        rw [hend.walk] at hn
        obtain ⟨status, -, hrun, -⟩ := hend.exists_status_of_failed hlast hn
        exact (Run.stepIs_of_status? hrun _).trans (Run.isDone_lastFailed status)
      failed_ok_iff := fun n => by
        rw [hend.walk]
        constructor
        · rintro ⟨hn, hok⟩
          exact hend.brokeOver_of_failed hlast hn hok
        · rintro ⟨status, hok, hbroke⟩
          exact hend.failed_of_brokeOver hlast hdone hok hbroke
      blocked := fun n hn => by
        rw [hend.walk] at hn
        exact hend.exists_status_of_blocked hn
      blocked_iff := fun n => by
        rw [hend.walk, hlast.walk.blocked_iff n, hlast.walkDag, hend.dag, hlast.dag]
        exact exists_congr fun m => and_comm }

namespace Run.Final

variable {s : Run μ σ} (hs : s.Final)
include hs

theorem mem_nodes_iff (n : String) :
    n ∈ s.plan.graph.dag.nodes ↔
      n ∈ s.walk.report.completed ∨ n ∈ s.walk.report.failed ∨ n ∈ s.walk.report.blocked :=
  hs.perm.mem_iff.symm.trans Walk.mem_settled_iff

/-- Every step is done. -/
theorem exists_status {n : String} (hn : n ∈ s.plan.graph.dag.nodes) :
    ∃ status, s.status? n = some status ∧ status.isDone = true := by
  rcases (hs.mem_nodes_iff n).1 hn with h | h | h
  · obtain ⟨status, hstatus, hok⟩ := stepIs_eq_true_iff.1 (hs.completed n h)
    exact ⟨status, hstatus, (Status.isDone_iff status).2 (.inl hok)⟩
  · exact stepIs_eq_true_iff.1 (hs.failed n h)
  · obtain ⟨status, hstatus, hdone, -⟩ := hs.blocked n h
    exact ⟨status, hstatus, hdone⟩

/-- The outcome is a success when every step ended well. -/
theorem success_iff :
    s.report.outcome = .success ↔
      ∀ n ∈ s.plan.graph.dag.nodes, s.stepIs n Status.isOk = true := by
  rw [report, PlanOutcome.ofSteps_eq_success_iff, ← Bool.not_eq_true, ← Bool.not_eq_true]
  have hany := any_report hs.graph
  rw [report] at hany
  rw [hany, hany]
  constructor
  · rintro ⟨hfailed, hcancelled⟩ n hn
    obtain ⟨status, hstatus, hdone⟩ := hs.exists_status hn
    have hstep := fun property => stepIs_of_status? hstatus property
    rcases (Status.isDone_iff status).1 hdone with h | h | h
    · exact (hstep _).trans h
    · exact absurd ⟨n, hn, (hstep _).trans h⟩ hfailed
    · exact absurd ⟨n, hn, (hstep _).trans h⟩ hcancelled
  · intro h
    have hok : ∀ n ∈ s.plan.graph.dag.nodes,
        s.stepIs n Status.isFailed = false ∧ s.stepIs n Status.isCancelled = false := by
      intro n hn
      obtain ⟨status, hstatus, -⟩ := hs.exists_status hn
      have hok := h n hn
      rw [stepIs_of_status? hstatus] at hok ⊢
      rw [stepIs_of_status? hstatus]
      exact ((Status.isOk_iff status).1 hok).2
    constructor
    · rintro ⟨n, hn, hfailed⟩
      rw [(hok n hn).1] at hfailed
      cases hfailed
    · rintro ⟨n, hn, hcancelled⟩
      rw [(hok n hn).2] at hcancelled
      cases hcancelled

/-- A success has no blocked step, and its failed steps ended well after all. -/
theorem success_iff_walk :
    s.report.outcome = .success ↔ s.walk.report.blocked = [] ∧
      ∀ n ∈ s.walk.report.failed, s.stepIs n Status.isOk = true := by
  rw [hs.success_iff]
  constructor
  · intro hok
    refine ⟨List.eq_nil_iff_forall_not_mem.2 fun n hn => ?_, fun n hn =>
      hok n ((hs.mem_nodes_iff n).2 (.inr (.inl hn)))⟩
    obtain ⟨status, hstatus, -, hnot⟩ := hs.blocked n hn
    have h := hok n ((hs.mem_nodes_iff n).2 (.inr (.inr hn)))
    rw [stepIs_of_status? hstatus, hnot] at h
    cases h
  · rintro ⟨hblocked, hfailed⟩ n hn
    rcases (hs.mem_nodes_iff n).1 hn with h | h | h
    · exact hs.completed n h
    · exact hfailed n h
    · rw [hblocked] at h
      exact absurd h List.not_mem_nil

end Run.Final

/-- After a success every step of the plan stands well. -/
theorem Plan.Ends.isOk_of_success {p : Plan μ} (hp : p.graph.Sound) {provider : Provider σ}
    {walker : Walker} {world : σ} {run : Run μ σ} {report : PlanReport}
    (h : p.Ends provider walker world run report) (hsuccess : report.outcome = .success)
    {n : String} (hn : n ∈ p.graph.dag.nodes) : run.stepIs n Status.isOk = true := by
  have hfinal := h.final hp
  obtain ⟨last, hreaches, -, hfinish⟩ := h
  have hlast := hreaches.sound hp
  have hend := hlast.finished hfinish
  rw [hend.report] at hsuccess
  refine hfinal.success_iff.1 hsuccess n ?_
  rw [hend.dag, hlast.dag]
  exact hn

/-- A plan with a report was a success when nothing was blocked and every failed step ended well
after all. A failed step ended well exactly when the sink broke down over that. So the outcome and
the report of the walk disagree exactly when there are failed steps, the sink broke down over the
good end of each of them, and nothing depends on them. -/
theorem Plan.outcome_agrees_iff {p : Plan μ} (hp : p.graph.Built) {provider : Provider σ}
    {walker : Walker} {world : σ} {run : Run μ σ} {report : PlanReport}
    (h : p.Ends provider walker world run report) :
    (report.outcome = .success ↔
      report.walk.blocked = [] ∧
        ∀ n ∈ report.walk.failed, run.stepIs n Status.isOk = true) ∧
    (∀ n, n ∈ report.walk.failed ∧ run.stepIs n Status.isOk = true ↔
      ∃ status, status.isOk = true ∧ run.BrokeOver n status) ∧
    ((report.outcome = .success ↔ report.walk.isSuccess = true) ↔
      ¬ (report.walk.blocked = [] ∧ report.walk.failed ≠ [] ∧
        ∀ n ∈ report.walk.failed, ∃ status, status.isOk = true ∧ run.BrokeOver n status)) := by
  have hfinal := h.final hp.sound
  obtain ⟨last, hreaches, -, hfinish⟩ := h
  obtain rfl := ((hreaches.sound hp.sound).finished hfinish).report
  have hsuccess := hfinal.success_iff_walk
  have hwalk : run.report.walk = run.walk.report := rfl
  have hwell : run.walk.report.isSuccess = true ↔
      run.walk.report.failed = [] ∧ run.walk.report.blocked = [] := by
    rw [WalkReport.isSuccess, Bool.and_eq_true, List.isEmpty_iff, List.isEmpty_iff]
  have hbroke : (∀ n ∈ run.walk.report.failed, ∃ status, status.isOk = true ∧
      run.BrokeOver n status) ↔
      ∀ n ∈ run.walk.report.failed, run.stepIs n Status.isOk = true :=
    forall₂_congr fun n hn => (hfinal.failed_ok_iff n).symm.trans (and_iff_right hn)
  rw [hwalk]
  refine ⟨hsuccess, hfinal.failed_ok_iff, ?_⟩
  rw [hsuccess, hwell, hbroke]
  constructor
  · rintro hagree ⟨hblocked, hsome, hok⟩
    exact hsome (hagree.1 ⟨hblocked, hok⟩).1
  · intro hnot
    constructor
    · rintro ⟨hblocked, hok⟩
      exact ⟨by_contra fun hsome => hnot ⟨hblocked, hsome, hok⟩, hblocked⟩
    · rintro ⟨hfailed, hblocked⟩
      rw [hfailed]
      exact ⟨hblocked, fun n hn => absurd hn List.not_mem_nil⟩

/-! ## A sink that breaks down over a good end -/

/-- The plan of one step that is complete after a call, with a sink that breaks down over that. -/
def Plan.betrayed (poll : PollPolicy) : Plan Unit where
  id := "run"
  description := ""
  graph := ⟨.ofList [("one", .once "one" [] (.complete (some "done")))], ⟨[("one", [])]⟩⟩
  poll := poll
  sink := .fragile fun e => (e.event.statusOf? "one").any Status.isComplete

theorem Plan.built_betrayed (poll : PollPolicy) : (Plan.betrayed poll).graph.Built := by
  have h : StepGraph.ofSteps [.once "one" [] (.complete (some "done"))] =
      .ok (Plan.betrayed poll).graph := by
    cbv
  exact .ofSteps h

/-- The report of that plan: a success, with a failed step. -/
def PlanReport.betrayed : PlanReport where
  outcome := .success
  steps := [⟨"one", .complete (some "done"), .epoch⟩]
  walk := { failed := ["one"] }

theorem Plan.ends_betrayed (poll : PollPolicy) :
    ∃ run, (Plan.betrayed poll).Ends .idle .sequential () run .betrayed := by
  have h : ((Plan.betrayed poll).plays .idle .sequential ()
      [.work "one", .work "one", .work "one", .work "one", .settle "one"]).any (fun run =>
      run.isOver && run.workers.isEmpty && run.finish.2 = some .betrayed) = true := by
    cbv
  obtain ⟨last, hlast, h⟩ := (Option.any_eq_true _ _).1 h
  rw [Bool.and_eq_true, Bool.and_eq_true, decide_eq_true_eq] at h
  obtain ⟨⟨hover, hworkers⟩, hreport⟩ := h
  exact ⟨last.finish.1, last, Plan.reaches_of_plays hlast, ⟨hover, hworkers⟩,
    Prod.ext rfl hreport⟩

/-- The step is pending at first, and yet a success is reported with a failed step. -/
theorem Plan.outcome_disagrees_betrayed :
    (∀ name step, (Plan.betrayed (.fixed 1000000)).graph.get? name = some step →
      step.status = .pending) ∧
    ∃ (run : Run Unit Unit) (report : PlanReport),
      (Plan.betrayed (.fixed 1000000)).Ends .idle .sequential () run report ∧
        ¬ (report.outcome = .success ↔ report.walk.isSuccess = true) := by
  refine ⟨fun name step hs => ?_, ?_⟩
  · rw [StepGraph.get?, Plan.betrayed, Table.get?_ofList_eq_some_iff (by decide),
      List.mem_singleton] at hs
    cases hs
    rfl
  · obtain ⟨run, hends⟩ := Plan.ends_betrayed (.fixed 1000000)
    refine ⟨run, .betrayed, hends, fun hagree => ?_⟩
    have hwalk : PlanReport.betrayed.walk.isSuccess = true := hagree.1 rfl
    cases hwalk

/-- The sink of that plan broke down over a status that is well. -/
theorem Plan.brokeOver_betrayed :
    ∃ (run : Run Unit Unit) (status : Status),
      (Plan.betrayed (.fixed 1000000)).Ends .idle .sequential () run .betrayed ∧
        status.isOk = true ∧ run.BrokeOver "one" status := by
  obtain ⟨run, hends⟩ := Plan.ends_betrayed (.fixed 1000000)
  obtain ⟨hsuccess, hbroke, -⟩ :=
    Plan.outcome_agrees_iff (Plan.built_betrayed (.fixed 1000000)) hends
  have hfailed : "one" ∈ PlanReport.betrayed.walk.failed := List.mem_singleton_self _
  obtain ⟨status, hok, h⟩ := (hbroke "one").1 ⟨hfailed, (hsuccess.1 rfl).2 "one" hfailed⟩
  exact ⟨run, status, hends, hok, h⟩

end Rollout

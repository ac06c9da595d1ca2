import Rollout.Proofs.Plan.Outcome

/-!
# No step is left in flight

Whatever the steps began with, whatever their actions did, and whether or not the sink broke down
inside of a worker, a report has one line for each step of its plan, and each of these steps is done.

* `Plan.names_snapshot_perm`: the lines of a snapshot are those of the steps.
* `Plan.Ends.reports_done`: the lines of a report, and where their steps stand.
-/

namespace Rollout

variable {μ σ : Type}

namespace Plan

variable {p : Plan μ}

theorem names_snapshot_perm (hg : p.graph.Sound) : (p.snapshot.map (·.name)).Perm p.keys := by
  obtain ⟨order, horder, hperm, -⟩ := exists_executionOrder hg
  have hnames := hg.names_stepsOf fun n hn => hperm.mem_iff.1 hn
  have hlines : p.snapshot.map (·.name) = (p.graph.stepsOf order).map (·.name) := by
    rw [snapshot, horder, List.map_map]
    rfl
  rw [hlines, hnames]
  exact hperm

/-- A line of a snapshot tells where the step of its name stands. -/
theorem get?_of_mem_snapshot (hg : p.graph.Sound) {line : Snapshot} (h : line ∈ p.snapshot) :
    line.name ∈ p.keys ∧ ∃ step, p.graph.get? line.name = some step ∧ step.snapshot = line := by
  have hmem : line.name ∈ p.keys :=
    (names_snapshot_perm hg).mem_iff.1 (List.mem_map.2 ⟨line, h, rfl⟩)
  obtain ⟨step, hstep, rfl⟩ := List.mem_map.1 h
  obtain ⟨n, -, hs⟩ := List.mem_filterMap.1 hstep
  obtain rfl : step.name = n := hg.named n step hs
  exact ⟨hmem, step, hs, rfl⟩

/-- A line of a report tells where the step of its name stands in the end. -/
theorem Ends.status?_of_mem_steps (hp : p.graph.Sound) {provider : Provider σ} {walker : Walker}
    {world : σ} {run : Run μ σ} {report : PlanReport}
    (h : p.Ends provider walker world run report) {line : Snapshot} (hline : line ∈ report.steps) :
    line.name ∈ p.graph.dag.nodes ∧ run.status? line.name = some line.status := by
  obtain ⟨last, hreaches, -, hfinish⟩ := h
  have hlast := hreaches.sound hp
  have hend := hlast.finished hfinish
  rw [hend.report] at hline
  obtain ⟨hmem, step, hs, rfl⟩ := get?_of_mem_snapshot hend.graph hline
  rw [← hlast.dag, ← hend.dag]
  exact ⟨hmem, Run.status?_eq_some hs⟩

/-- A report has exactly one line for each step of the plan. It tells where the step stands in the
end, and the step is done. -/
theorem Ends.reports_done (hp : p.graph.Built) {provider : Provider σ} {walker : Walker} {world : σ}
    {run : Run μ σ} {report : PlanReport} (h : p.Ends provider walker world run report) :
    (report.steps.map (·.name)).Perm (p.graph.toList.map (·.name)) ∧
    (report.steps.map (·.name)).Nodup ∧
    ∀ line ∈ report.steps, run.status? line.name = some line.status ∧ line.status.isDone = true := by
  have hfinal := h.final hp.sound
  obtain ⟨last, hreaches, -, hfinish⟩ := h
  have hlast := hreaches.sound hp.sound
  have hend := hlast.finished hfinish
  have hdag : run.plan.graph.dag = p.graph.dag := hend.dag.trans hlast.dag
  have hkeys : run.plan.keys = p.keys := congrArg Dag.nodes hdag
  have hsteps : report.steps = run.plan.snapshot := by
    rw [hend.report]
    rfl
  have hperm : (report.steps.map (·.name)).Perm p.keys := by
    rw [hsteps, ← hkeys]
    exact names_snapshot_perm hend.graph
  rw [names_toList hp.sound]
  refine ⟨hperm, hperm.nodup_iff.2 hp.sound.wellFormed.nodup_nodes, fun line hline => ?_⟩
  rw [hsteps] at hline
  obtain ⟨hmem, step, hs, rfl⟩ := get?_of_mem_snapshot hend.graph hline
  have hstatus : run.status? step.snapshot.name = some step.status := Run.status?_eq_some hs
  obtain ⟨status, hfound, hdone⟩ := hfinal.exists_status hmem
  obtain rfl : status = step.status := Option.some.inj (hfound.symm.trans hstatus)
  exact ⟨hstatus, hdone⟩

/-! ## A worker that breaks down half-way -/

/-- Two steps, of which the second requires the first. The action of the first one is still at work
after its first call, and the sink breaks down when it hears of that. -/
def abandoned (poll : PollPolicy) : Plan Unit :=
  { pair (.submitted none) poll with
    sink := .fragile fun e => (e.event.statusOf? "first").any Status.isSubmitted }

theorem ends_abandoned (poll : PollPolicy) :
    ∃ run report, (abandoned poll).Ends .idle .sequential () run report ∧
      report.walk = { failed := ["first"], blocked := ["second"] } ∧
      report.steps.map (fun line => (line.name, line.status)) =
        [("first", .failed (some "step worker aborted")),
          ("second", .failed (some "dependency has failed"))] := by
  have h : ((abandoned poll).plays .idle .sequential ()
      [.work "first", .work "first", .work "first", .work "first", .settle "first"]).any
      (fun last => last.isOver && last.workers.isEmpty && last.finish.2.any fun report =>
        report.walk = { failed := ["first"], blocked := ["second"] } &&
          report.steps.map (fun line => (line.name, line.status)) =
            [("first", .failed (some "step worker aborted")),
              ("second", .failed (some "dependency has failed"))]) = true := by
    cbv
  obtain ⟨last, hlast, h⟩ := (Option.any_eq_true _ _).1 h
  rw [Bool.and_eq_true, Bool.and_eq_true, Option.any_eq_true] at h
  obtain ⟨⟨hover, hworkers⟩, report, hreport, h⟩ := h
  rw [Bool.and_eq_true, decide_eq_true_eq, decide_eq_true_eq] at h
  exact ⟨last.finish.1, report,
    ⟨last, reaches_of_plays hlast, ⟨hover, hworkers⟩, Prod.ext rfl hreport⟩, h⟩

/-- The step whose worker broke down half-way is done in the end, and so is the one behind it. -/
theorem reports_done_abandoned :
    ∃ (run : Run Unit Unit) (report : PlanReport),
      (abandoned .standard).Ends .idle .sequential () run report ∧
        report.walk.failed = ["first"] ∧ report.walk.blocked = ["second"] ∧
        (report.steps.map (·.name)).Perm ["first", "second"] ∧
        ∀ line ∈ report.steps, line.status.isDone = true := by
  obtain ⟨run, report, hends, hwalk, -⟩ := ends_abandoned .standard
  have hbuilt : (abandoned .standard).graph.Built :=
    .ofSteps (ofSteps_pair (.submitted none) .standard)
  obtain ⟨hperm, -, hdone⟩ := Ends.reports_done hbuilt hends
  rw [names_toList hbuilt.sound] at hperm
  exact ⟨run, report, hends, by rw [hwalk], by rw [hwalk], hperm, fun line hline =>
    (hdone line hline).2⟩

end Plan

end Rollout

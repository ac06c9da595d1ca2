import Rollout.Proofs.Plan.Invariant
import Rollout.Proofs.Plan.Stride

/-!
# The end of a run

When the walk is over, every step that failed without being done and every blocked step gets its
last status. Nothing else changes, and what is reported is how the steps stand then.

* `Run.Closes`: only some steps change, and events are told in between.
* `Run.closes_foldl`: steps closed one by one.
* `Run.close_spec`: what each step's last status is, if the sink does not break down.
* `Run.Sound.finished`: a run with a report, in terms of the run before it was closed.
* `Run.world_finish` and `Plan.Ends.exists_reaches`: the end asks the provider nothing.
* `Plan.any_snapshot`: the report has a line for every step.
-/

namespace Rollout

variable {μ σ : Type}

namespace Run

/-! ## Steps closed one by one -/

/-- Only the steps of some names changed, and not who they are. Events were told, and the sink broke
down over none of them unless the run is broken now. -/
structure Closes (names : List String) (r s : Run μ σ) : Prop where
  walk : s.walk = r.walk
  dag : s.plan.graph.dag = r.plan.graph.dag
  sink : s.plan.sink = r.plan.sink
  runId : s.journal.runId = r.journal.runId
  journal : r.journal.reversed <:+ s.journal.reversed
  cancelled : s.cancelled = r.cancelled
  step_of_not_mem : ∀ m, m ∉ names → s.step? m = r.step? m
  named : ∀ m, (s.step? m).map (·.name) = (r.step? m).map (·.name)
  broken : s.broken = false → r.broken = false
  broke : s.broken = false → ∀ m status, s.BrokeOver m status → r.BrokeOver m status

namespace Closes

variable {names names' : List String} {r s t : Run μ σ}

theorem refl (names : List String) (r : Run μ σ) : Closes names r r :=
  ⟨rfl, rfl, rfl, rfl, List.suffix_refl _, rfl, fun _ _ => rfl, fun _ => rfl, id, fun _ _ _ => id⟩

theorem trans (h : Closes names r s) (h' : Closes names' s t) : Closes (names ++ names') r t where
  walk := h'.walk.trans h.walk
  dag := h'.dag.trans h.dag
  sink := h'.sink.trans h.sink
  runId := h'.runId.trans h.runId
  journal := h.journal.trans h'.journal
  cancelled := h'.cancelled.trans h.cancelled
  step_of_not_mem m hm := by
    rw [List.mem_append, not_or] at hm
    exact (h'.step_of_not_mem m hm.2).trans (h.step_of_not_mem m hm.1)
  named m := (h'.named m).trans (h.named m)
  broken := h.broken ∘ h'.broken
  broke hb m status hm := h.broke (h'.broken hb) m status (h'.broke hb m status hm)

theorem status?_of_not_mem (h : Closes names r s) {m : String} (hm : m ∉ names) :
    s.status? m = r.status? m := by
  rw [status?, status?, h.step_of_not_mem m hm]

/-- A step that is there after was there before, under the same name. -/
theorem exists_step (h : Closes names r s) {m : String} {step : Step μ}
    (hs : s.step? m = some step) : ∃ old, r.step? m = some old ∧ step.name = old.name := by
  have hm := h.named m
  rw [hs, Option.map_some, eq_comm, Option.map_eq_some_iff] at hm
  obtain ⟨old, hold, hname⟩ := hm
  exact ⟨old, hold, hname.symm⟩

theorem graph (h : Closes names r s) (hr : r.plan.graph.Sound) : s.plan.graph.Sound where
  wellFormed := h.dag ▸ hr.wellFormed
  mem_nodes_iff n := by
    rw [h.dag, hr.mem_nodes_iff n, ← Option.isSome_iff_exists, ← Option.isSome_iff_exists]
    have hn := congrArg Option.isSome (h.named n)
    rw [Option.isSome_map, Option.isSome_map, step?, step?] at hn
    rw [hn]
  named n step hs := by
    obtain ⟨old, hold, hname⟩ := h.exists_step hs
    exact hname.trans (hr.named n old hold)

end Closes

/-- Setting a status outside of every worker. -/
theorem assign_spec {r : Run μ σ} {name : String} {step : Step μ} (hs : r.step? name = some step)
    (hname : step.name = name) (status : Status) :
    Closes [name] r (r.assign name status) ∧
      ((r.assign name status).broken = false →
        (r.assign name status).status? name = some status) := by
  rw [assign]
  split
  · next hbroken => exact ⟨Closes.refl _ r, fun hb => by rw [hbroken] at hb; cases hb⟩
  · next hbroken =>
    rw [Bool.not_eq_true] at hbroken
    have hsets := sets_setStatus hs hname status
    generalize r.setStatus name status = pair at hsets
    obtain ⟨s, broke⟩ := pair
    refine ⟨?_, fun _ => hsets.stands⟩
    exact
      { walk := hsets.frame.walk
        dag := hsets.frame.dag
        sink := hsets.frame.sink
        runId := hsets.frame.runId
        journal := hsets.frame.journal
        cancelled := hsets.cancelled
        step_of_not_mem := fun m hm => hsets.frame.step_of_ne m (by simpa using hm)
        named := fun m => by
          by_cases hm : m = name
          · subst hm
            obtain ⟨step', hs', hname', -⟩ := hsets.frame.step step hs
            show (s.step? m).map (·.name) = _
            rw [hs', hs, Option.map_some, Option.map_some, hname']
          · show (s.step? m).map (·.name) = _
            rw [hsets.frame.step_of_ne m hm]
        broken := fun _ => hbroken
        broke := fun hb m told h => by
          obtain hold | ⟨-, -, hne, hbreaks⟩ :=
            BrokeOver.of_told hsets.told hsets.frame.runId hsets.frame.sink h
          · exact hold
          · rcases hsets.whenSound hb with hsame | hquiet
            · exact absurd hsame hne
            · rw [hbreaks] at hquiet
              cases hquiet }

/-- Steps closed one after the other, each in a way that depends on its own status only. -/
theorem closes_foldl {r : Run μ σ} {f : Run μ σ → String → Run μ σ}
    {g : String → Status → Status} {names : List String} (hnodup : names.Nodup)
    (hf : ∀ done s, Closes done r s → ∀ n ∈ names, Closes [n] s (f s n) ∧
      ((f s n).broken = false → (f s n).status? n = (s.status? n).map (g n))) :
    Closes names r (names.foldl f r) ∧
      ((names.foldl f r).broken = false →
        ∀ n ∈ names, (names.foldl f r).status? n = (r.status? n).map (g n)) := by
  have key : ∀ (rest done : List String) (s : Run μ σ), rest ⊆ names → rest.Nodup →
      Closes done r s → Closes rest s (rest.foldl f s) ∧
        ((rest.foldl f s).broken = false →
          ∀ n ∈ rest, (rest.foldl f s).status? n = (s.status? n).map (g n)) := by
    intro rest
    induction rest with
    | nil => exact fun done s _ _ _ => ⟨Closes.refl _ s, fun _ n hn => absurd hn List.not_mem_nil⟩
    | cons n rest ih =>
      intro done s hsub hrest hs
      obtain ⟨hn, hsub⟩ := List.cons_subset.1 hsub
      obtain ⟨hnew, hrest⟩ := List.nodup_cons.1 hrest
      obtain ⟨hfirst, hstatus⟩ := hf done s hs n hn
      obtain ⟨hothers, hstatuses⟩ := ih (done ++ [n]) (f s n) hsub hrest (hs.trans hfirst)
      rw [List.foldl_cons]
      refine ⟨hfirst.trans hothers, fun hb m hm => ?_⟩
      rcases List.mem_cons.1 hm with rfl | hlater
      · rw [hothers.status?_of_not_mem hnew]
        exact hstatus (hothers.broken hb)
      · rw [hstatuses hb m hlater, hfirst.status?_of_not_mem]
        rw [List.mem_singleton]
        exact fun hmn => hnew (hmn ▸ hlater)
  exact key names [] r (fun _ h => h) hnodup (Closes.refl _ r)

/-! ## Last statuses -/

/-- The last status of a step whose worker ended badly. -/
def lastFailed (status : Status) : Status :=
  if status.isDone then status else .failed (some "step worker aborted")

/-- The last status of a blocked step. -/
def lastBlocked (r : Run μ σ) (failures : List String) (name : String) : Status :=
  if r.isBehind failures name || !r.cancelled then .failed (some "dependency has failed")
  else .cancelled (some "interrupted")

theorem closeFailed_spec {r : Run μ σ} (hg : r.plan.graph.Sound) {name : String}
    (hn : name ∈ r.plan.graph.dag.nodes) :
    Closes [name] r (r.closeFailed name) ∧
      ((r.closeFailed name).broken = false →
        (r.closeFailed name).status? name = (r.status? name).map lastFailed) := by
  obtain ⟨step, hs⟩ := (hg.mem_nodes_iff name).1 hn
  have hstatus := status?_eq_some (r := r) hs
  rw [closeFailed, stepIs, show r.step? name = some step from hs]
  cases hdone : step.status.isDone with
  | true =>
    simp only [hdone, Bool.not_true, Bool.false_eq_true, if_false]
    refine ⟨Closes.refl _ r, fun _ => ?_⟩
    rw [hstatus, Option.map_some, lastFailed, if_pos hdone]
  | false =>
    simp only [hdone, Bool.not_false, if_true]
    obtain ⟨hcloses, hstands⟩ := assign_spec hs (hg.named name step hs)
      (.failed (some "step worker aborted"))
    refine ⟨hcloses, fun hb => ?_⟩
    rw [hstands hb, hstatus, Option.map_some, lastFailed, if_neg (by simp [hdone])]

theorem closeBlocked_spec {r : Run μ σ} (hg : r.plan.graph.Sound) (failures : List String)
    {name : String} (hn : name ∈ r.plan.graph.dag.nodes) :
    Closes [name] r (closeBlocked failures r name) ∧
      ((closeBlocked failures r name).broken = false →
        (closeBlocked failures r name).status? name =
          (r.status? name).map fun _ => r.lastBlocked failures name) := by
  obtain ⟨step, hs⟩ := (hg.mem_nodes_iff name).1 hn
  rw [status?_eq_some (r := r) hs]
  exact assign_spec hs (hg.named name step hs) _

/-- Being behind others is a matter of the graph. -/
theorem isBehind_iff {r : Run μ σ} (hg : r.plan.graph.Sound) {others : List String} {name : String}
    (hn : name ∈ r.plan.graph.dag.nodes) :
    r.isBehind others name = true ↔ ∃ m ∈ others, r.plan.graph.dag.Path name m := by
  obtain ⟨needed, hneeded, -, hmem⟩ := hg.wellFormed.allDependenciesOf_eq_ok hn
  simp only [isBehind, hneeded, List.any_eq_true, decide_eq_true_eq, hmem]
  exact exists_congr fun m => and_comm

/-- The failed steps, closed one by one. -/
theorem foldl_closeFailed_spec {r : Run μ σ} (hg : r.plan.graph.Sound) {names : List String}
    (hnodup : names.Nodup) (hnode : names ⊆ r.plan.graph.dag.nodes) :
    Closes names r (names.foldl closeFailed r) ∧
      ((names.foldl closeFailed r).broken = false →
        ∀ n ∈ names, (names.foldl closeFailed r).status? n = (r.status? n).map lastFailed) :=
  closes_foldl (g := fun _ => lastFailed) hnodup fun _ _ hs _ hn =>
    closeFailed_spec (hs.graph hg) (hs.dag ▸ hnode hn)

/-- The blocked steps, closed one by one. How depends on the graph and on the cancellation only, so
it can be told beforehand. -/
theorem foldl_closeBlocked_spec {r : Run μ σ} (hg : r.plan.graph.Sound) (failures : List String)
    {names : List String} (hnodup : names.Nodup) (hnode : names ⊆ r.plan.graph.dag.nodes) :
    Closes names r (names.foldl (closeBlocked failures) r) ∧
      ((names.foldl (closeBlocked failures) r).broken = false →
        ∀ n ∈ names, (names.foldl (closeBlocked failures) r).status? n =
          some (r.lastBlocked failures n)) := by
  have hlast : ∀ s : Run μ σ, s.plan.graph.dag = r.plan.graph.dag → s.cancelled = r.cancelled →
      ∀ n, s.lastBlocked failures n = r.lastBlocked failures n := fun s hdag hcancelled n => by
    rw [lastBlocked, lastBlocked, isBehind, isBehind, hdag, hcancelled]
  obtain ⟨hcloses, hstatus⟩ := closes_foldl (g := fun n _ => r.lastBlocked failures n) hnodup
    fun done s hs n hn => by
      rw [← hlast s hs.dag hs.cancelled n]
      exact closeBlocked_spec (hs.graph hg) failures (hs.dag ▸ hnode hn)
  refine ⟨hcloses, fun hb n hn => ?_⟩
  obtain ⟨step, hs⟩ := (hg.mem_nodes_iff n).1 (hnode hn)
  rw [hstatus hb n hn, status?_eq_some (r := r) hs, Option.map_some]

/-- How steps stand when a run has been closed and the sink did not break down over that. -/
structure Closed (r s : Run μ σ) : Prop where
  /-- Completed steps stand as before, and so does everything that the walk did not end. -/
  others : ∀ n, n ∉ r.walk.report.failed → n ∉ r.walk.report.blocked → s.step? n = r.step? n
  failed : ∀ n ∈ r.walk.report.failed, s.status? n = (r.status? n).map lastFailed
  /-- A blocked step has failed if it is behind a failed one that was not cancelled. -/
  behind : ∀ n ∈ r.walk.report.blocked,
    (∃ m ∈ r.walk.report.failed, r.plan.graph.dag.Path n m ∧
      s.stepIs m (!·.isCancelled) = true) →
    s.status? n = some (.failed (some "dependency has failed"))
  /-- Else it has failed only if nobody called the run off. -/
  notBehind : ∀ n ∈ r.walk.report.blocked,
    (¬ ∃ m ∈ r.walk.report.failed, r.plan.graph.dag.Path n m ∧
      s.stepIs m (!·.isCancelled) = true) →
    s.status? n = some (if r.cancelled then .cancelled (some "interrupted")
      else .failed (some "dependency has failed"))

theorem stepIs_congr {r s : Run μ σ} {name : String} (h : s.status? name = r.status? name)
    (property : Status → Bool) : s.stepIs name property = r.stepIs name property := by
  rw [Bool.eq_iff_iff, stepIs_eq_true_iff, stepIs_eq_true_iff, h]

theorem close_spec {p : Plan μ} {r : Run μ σ} (hr : r.Sound p) :
    Closes (r.walk.report.failed ++ r.walk.report.blocked) r r.close ∧
      (r.close.broken = false → Closed r r.close) := by
  have hnodup := hr.walk.nodup_settled
  rw [WalkReport.settled, List.append_assoc] at hnodup
  obtain ⟨hfnodup, hbnodup, hdisjoint⟩ := List.nodup_append'.1 hnodup.of_append_right
  have hnode : r.walk.report.settled ⊆ r.plan.graph.dag.nodes := by
    rw [hr.dag, ← hr.walkDag]
    exact hr.walk.settled_subset
  have hbnode : r.walk.report.blocked ⊆ r.plan.graph.dag.nodes := fun n hn =>
    hnode (Walk.mem_settled_iff.2 (.inr (.inr hn)))
  obtain ⟨hfcloses, hfailed⟩ := foldl_closeFailed_spec hr.graph hfnodup fun n hn =>
    hnode (Walk.mem_settled_iff.2 (.inr (.inl hn)))
  generalize hmid : r.walk.report.failed.foldl closeFailed r = mid at hfcloses hfailed
  have hg := hfcloses.graph hr.graph
  obtain ⟨hbcloses, hblocked⟩ := foldl_closeBlocked_spec hg mid.failures hbnodup fun n hn =>
    hfcloses.dag ▸ hbnode hn
  have hclose : r.close =
      r.walk.report.blocked.foldl (closeBlocked mid.failures) mid := by
    rw [← hmid, close, hmid, hfcloses.walk]
  rw [← hclose] at hbcloses hblocked
  refine ⟨hfcloses.trans hbcloses, fun hb => ?_⟩
  have hfstatus : ∀ n ∈ r.walk.report.failed, r.close.status? n = mid.status? n := fun n hn =>
    hbcloses.status?_of_not_mem fun hn' => hdisjoint hn hn'
  have hfailures : ∀ m, m ∈ mid.failures ↔
      m ∈ r.walk.report.failed ∧ r.close.stepIs m (!·.isCancelled) = true := fun m => by
    rw [failures, hfcloses.walk, List.mem_filter]
    refine and_congr_right fun hm => ?_
    rw [stepIs_congr (hfstatus m hm)]
  have hbehind : ∀ n ∈ r.walk.report.blocked, mid.isBehind mid.failures n = true ↔
      ∃ m ∈ r.walk.report.failed, r.plan.graph.dag.Path n m ∧
        r.close.stepIs m (!·.isCancelled) = true := fun n hn => by
    rw [isBehind_iff hg (hfcloses.dag ▸ hbnode hn), hfcloses.dag]
    simp only [hfailures, and_assoc]
    exact exists_congr fun m => and_congr_right fun _ => and_comm
  refine
    { others := fun n hf hbl => ?_
      failed := fun n hn => (hfstatus n hn).trans (hfailed (hbcloses.broken hb) n hn)
      behind := fun n hn h => ?_
      notBehind := fun n hn h => ?_ }
  · exact (hbcloses.step_of_not_mem n hbl).trans (hfcloses.step_of_not_mem n hf)
  · rw [hblocked hb n hn, lastBlocked, (hbehind n hn).2 h, Bool.true_or, if_pos rfl]
  · rw [← hbehind n hn, Bool.not_eq_true] at h
    rw [hblocked hb n hn, lastBlocked, h, Bool.false_or, hfcloses.cancelled]
    cases r.cancelled <;> rfl

/-! ## The report -/

/-- A run with a report was closed without the sink breaking down, and tells how it was then. -/
theorem finish_eq_some {r s : Run μ σ} {report : PlanReport} (h : r.finish = (s, some report)) :
    r.close.broken = false ∧ report = r.close.report ∧ s.plan = r.close.plan ∧
      s.walk = r.close.walk ∧ s.cancelled = r.close.cancelled ∧
      ∃ moment outcome ms, s.journal = r.close.journal.record moment (.planFinished outcome ms) := by
  rw [finish] at h
  obtain ⟨hs, hreport⟩ := Prod.mk.inj h
  rw [hs] at hreport
  cases hbroken : r.close.broken with
  | true =>
    rw [announce, if_pos hbroken] at hs
    rw [← hs, if_pos hbroken] at hreport
    cases hreport
  | false =>
    rw [announce, hbroken, if_neg Bool.false_ne_true] at hs
    split at hreport
    · cases hreport
    · subst hs
      exact ⟨rfl, (Option.some.inj hreport).symm, rfl, rfl, rfl, _, _, _, rfl⟩

/-- What is true of a run `s` with a report, in terms of the run `r` before it was closed. -/
structure Finished (r s : Run μ σ) (report : PlanReport) : Prop where
  /-- The sink had not broken down before. -/
  broken : r.broken = false
  closed : Closed r s
  graph : s.plan.graph.Sound
  walk : s.walk = r.walk
  dag : s.plan.graph.dag = r.plan.graph.dag
  cancelled : s.cancelled = r.cancelled
  report : report = s.report
  /-- The sink broke down over nothing new. -/
  brokeOver_iff : ∀ n status, s.BrokeOver n status ↔ r.BrokeOver n status

theorem Sound.finished {p : Plan μ} {r s : Run μ σ} (hr : r.Sound p) {report : PlanReport}
    (h : r.finish = (s, some report)) : Finished r s report := by
  obtain ⟨hcloses, hclosed⟩ := close_spec hr
  obtain ⟨hb, hreport, hplan, hwalk, hcancelled, moment, outcome, ms, hjournal⟩ :=
    finish_eq_some h
  have hstep : ∀ n, s.step? n = r.close.step? n := fun n => by rw [step?, step?, hplan]
  have hstatus : ∀ n, s.status? n = r.close.status? n := fun n => by rw [status?, status?, hstep]
  have hclosed := hclosed hb
  exact
    { broken := hcloses.broken hb
      closed :=
        { others := fun n hf hbl => (hstep n).trans (hclosed.others n hf hbl)
          failed := fun n hn => (hstatus n).trans (hclosed.failed n hn)
          behind := fun n hn h => by
            simp only [stepIs_congr (hstatus _)] at h
            exact (hstatus n).trans (hclosed.behind n hn h)
          notBehind := fun n hn h => by
            simp only [stepIs_congr (hstatus _)] at h
            exact (hstatus n).trans (hclosed.notBehind n hn h) }
      graph := hplan ▸ hcloses.graph hr.graph
      walk := hwalk.trans hcloses.walk
      dag := by rw [hplan, hcloses.dag]
      cancelled := hcancelled.trans hcloses.cancelled
      report := by rw [hreport, Run.report, Run.report, hplan, hwalk]
      brokeOver_iff := fun n status => by
        constructor
        · rintro ⟨told, before, hsuffix, ⟨stamp, hevent⟩, hbreaks⟩
          -- The end of the plan is not the change of a step.
          rw [hjournal, Journal.record] at hsuffix
          rcases List.suffix_cons_iff.1 hsuffix with heq | hsuffix
          · obtain ⟨rfl, rfl⟩ := List.cons.inj heq
            cases hevent
          · refine hcloses.broke hb n status ⟨told, before, hsuffix, ⟨stamp, hevent⟩, ?_⟩
            rw [hplan, hjournal] at hbreaks
            exact hbreaks
        · intro h
          refine h.mono ?_ ?_ ?_
          · rw [hjournal, Journal.record]
            exact hcloses.journal.trans (List.suffix_cons _ _)
          · rw [hjournal]
            exact hcloses.runId
          · rw [hplan]
            exact hcloses.sink }

/-- Closing and telling the end leave a step alone whose worker ended well. -/
theorem step?_finish {p : Plan μ} {r : Run μ σ} (hr : r.Sound p) {name : String}
    (hend : r.EndedWith name true) : r.finish.1.step? name = r.step? name := by
  have hnot : name ∉ r.walk.report.failed ++ r.walk.report.blocked := by
    rcases hend with ⟨attempt, hw⟩ | hc
    · intro h
      have hs : name ∈ r.walk.report.settled := by
        rw [WalkReport.settled, List.append_assoc]
        exact List.mem_append_right _ h
      rw [hr.worker_of_settled hs] at hw
      cases hw
    · exact hr.walk.not_mem_of_completed hc
  have hannounce : r.finish.1.step? name = r.close.step? name := by
    rw [finish, announce]
    split <;> rfl
  exact hannounce.trans ((close_spec hr).1.step_of_not_mem name hnot)

/-! ## What the end leaves alone -/

theorem world_assign (r : Run μ σ) (name : String) (status : Status) :
    (r.assign name status).world = r.world := by
  rw [assign]
  split
  · rfl
  · exact world_setStatus r name status

theorem world_foldl {f : Run μ σ → String → Run μ σ}
    (hf : ∀ r name, (f r name).world = r.world) (names : List String) (r : Run μ σ) :
    (names.foldl f r).world = r.world := by
  induction names generalizing r with
  | nil => rfl
  | cons name names ih => exact (ih (f r name)).trans (hf r name)

/-- Closing a run asks the provider nothing. -/
theorem world_finish (r : Run μ σ) : r.finish.1.world = r.world := by
  have hclose : r.close.world = r.world := by
    rw [close]
    refine (world_foldl (fun r name => world_assign r name _) _ _).trans
      (world_foldl (fun r name => ?_) _ _)
    rw [closeFailed]
    split
    · exact world_assign r name _
    · rfl
  rw [finish, announce]
  split
  · exact hclose
  · exact hclose

end Run

/-- A plan ends in the world of a run that it can come to. -/
theorem Plan.Ends.exists_reaches {p : Plan μ} {provider : Provider σ} {walker : Walker} {world : σ}
    {run : Run μ σ} {report : PlanReport} (h : p.Ends provider walker world run report) :
    ∃ last, p.Reaches provider walker world last ∧ run.world = last.world := by
  obtain ⟨last, hreaches, -, hfinish⟩ := h
  exact ⟨last, hreaches, by rw [← Run.world_finish last, hfinish]⟩

/-- A report has a line for every step. -/
theorem Plan.any_snapshot {p : Plan μ} (hg : p.graph.Sound) (property : Status → Bool) :
    p.snapshot.any (fun line => property line.status) = true ↔
      ∃ name ∈ p.graph.dag.nodes, ∃ step, p.graph.get? name = some step ∧
        property step.status = true := by
  obtain ⟨order, horder⟩ := hg.wellFormed.exists_sort
  have hmem := fun n => (hg.wellFormed.simple.sort_perm horder).mem_iff (a := n)
  simp only [snapshot, executionOrder, horder, StepGraph.stepsOf, List.any_map, List.any_eq_true,
    List.mem_filterMap, List.mem_reverse, hmem]
  constructor
  · rintro ⟨step, ⟨name, hn, hs⟩, hstatus⟩
    exact ⟨name, hn, step, hs, hstatus⟩
  · rintro ⟨name, hn, step, hs, hstatus⟩
    exact ⟨step, ⟨name, hn, hs⟩, hstatus⟩

end Rollout

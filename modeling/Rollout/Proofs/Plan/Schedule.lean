import Rollout.Proofs.Plan.Apart
import Rollout.Proofs.Plan.Outcome

/-!
# The schedule does not matter

A plan that keeps its steps apart ends in one way only when nobody calls it off: which worker went
on when, how many of them at once, and how long they waited cannot be told from the end.

* `Run.AtRest`: what is known of a run at such an end.
* `Run.AtRest.exists_calls`: every visit came to where the step comes by itself.
* `Run.AtRest.mem_dispatched_iff`: a step was visited when all that it depends on was completed.
* `Run.SameEnd`: what the ends of two runs have in common.
* `Run.AtRest.sameEnd`: two such ends of one graph, whatever the schedules.
* `Plan.EndsOneWay` and `Plan.endsOneWay_of`: a way to make plans all of whose runs end alike.
-/

namespace Rollout

open Simulator (AgreeAt)

variable {μ : Type}

namespace Run

/-! ## What the report says -/

/-- The lines of two snapshots say the same when the graphs are the same and so are the statuses. -/
theorem lines_congr {σ : Type} {r s : Run μ σ} (hr : r.plan.graph.Sound) (hs : s.plan.graph.Sound)
    (hdag : s.plan.graph.dag = r.plan.graph.dag) (hstatus : ∀ n, r.status? n = s.status? n) :
    r.plan.snapshot.map (fun line => (line.name, line.status)) =
      s.plan.snapshot.map fun line => (line.name, line.status) := by
  have hlines : ∀ {t : Run μ σ}, t.plan.graph.Sound → ∀ names : List String,
      ((t.plan.graph.stepsOf names).map (·.snapshot)).map (fun line => (line.name, line.status)) =
        names.filterMap fun n => (t.status? n).map fun status => (n, status) := by
    intro t ht names
    rw [List.map_map, StepGraph.stepsOf, List.map_filterMap]
    refine List.filterMap_congr fun n _ => ?_
    rw [status?, Option.map_map, step?]
    cases hstep : t.plan.graph.get? n with
    | none => rfl
    | some step =>
      rw [Option.map_some, Option.map_some, ← ht.named n step hstep]
      rfl
  have horder : s.plan.executionOrder = r.plan.executionOrder := by
    rw [Plan.executionOrder, Plan.executionOrder, hdag]
  have hkeys : s.plan.keys = r.plan.keys := by rw [Plan.keys, Plan.keys, hdag]
  rw [Plan.snapshot, Plan.snapshot, hlines hr, hlines hs, horder, hkeys]
  exact List.filterMap_congr fun n _ => by rw [hstatus n]

/-! ## One run at its end -/

/-- A run at its end with a report, nobody having called it off and no sink having broken down. The
steps of its plan keep apart. -/
structure AtRest (p : Plan μ) (origin : Simulator) (last run : Run μ Simulator)
    (report : PlanReport) (start own : String → Simulator) : Prop where
  graph : p.graph.Sound
  apart : p.KeepsApart
  quiet : ∀ journal, p.sink.breaksAt journal = false
  sound : last.Sound p
  worlds : Apart p origin last start own
  done : last.IsDone
  finished : Finished last run report
  uncancelled : last.cancelled = false
  world : run.world = last.world

namespace AtRest

variable {p : Plan μ} {origin : Simulator} {last run : Run μ Simulator} {report : PlanReport}
  {start own : String → Simulator} {n : String}
  (h : AtRest p origin last run report start own)
include h

/-- A visit has ended, in one of two ways. -/
theorem exists_endedWith (hn : n ∈ last.walk.dispatched) :
    ∃ ok, n ∈ last.walk.report.visited ok :=
  exists_visited h.sound h.done hn

/-- The way a visit ended tells how the step stands. -/
theorem status_of_visited {ok : Bool} (hn : n ∈ last.walk.report.visited ok) :
    ∃ status, last.status? n = some status ∧ status.isDone = true ∧ status.isOk = ok := by
  cases ok with
  | true =>
    obtain ⟨status, hstatus, hok⟩ := h.sound.well n (.inr hn)
    exact ⟨status, hstatus, (Status.isDone_iff status).2 (.inl hok), hok⟩
  | false =>
    obtain ⟨status, hstatus, ⟨hdone, hok⟩ | hbroke⟩ := h.sound.unwell n (.inr hn)
    · exact ⟨status, hstatus, hdone, hok⟩
    · obtain ⟨_, _, _, _, hbreaks⟩ := hbroke
      rw [h.sound.sink, h.quiet] at hbreaks
      cases hbreaks

/-- The completed steps are those whose visit left them well. -/
theorem mem_completed_iff : n ∈ last.walk.report.completed ↔
    n ∈ last.walk.dispatched ∧ ∃ status, last.status? n = some status ∧ status.isOk = true := by
  constructor
  · intro hn
    obtain ⟨status, hstatus, -, hok⟩ := h.status_of_visited
      (show n ∈ last.walk.report.visited true from hn)
    exact ⟨h.sound.walk.ended_dispatched n (.inl hn), status, hstatus, hok⟩
  · rintro ⟨hn, status, hstatus, hok⟩
    obtain ⟨how, hvisited⟩ := h.exists_endedWith hn
    obtain ⟨status', hstatus', -, rfl⟩ := h.status_of_visited hvisited
    obtain rfl := Option.some.inj (hstatus.symm.trans hstatus')
    rw [hok] at hvisited
    exact hvisited

/-- A step was visited when all that it depends on, directly or not, was completed. -/
theorem mem_dispatched_iff (hn : n ∈ p.graph.dag.nodes) : n ∈ last.walk.dispatched ↔
    ∀ m, p.graph.dag.Path n m → m ∈ last.walk.report.completed :=
  h.finished.mem_dispatched_iff h.sound h.done hn

/-- A visit came to where the step comes by itself, and called it as long as it was not done. -/
theorem exists_calls (hn : n ∈ last.walk.dispatched) {first : Step μ}
    (hfirst : p.graph.get? n = some first) :
    ∃ count, (∀ k < count, (first.after .simulated (start n) k).status.isDone = false) ∧
      (first.after .simulated (start n) count).status.isDone = true ∧
      last.status? n = some (first.after .simulated (start n) count).status ∧
      own n = (first.after .simulated (start n) count).world := by
  obtain ⟨ok, hvisited⟩ := h.exists_endedWith hn
  obtain ⟨status, hstatus, hdone, -⟩ := h.status_of_visited hvisited
  cases h.worlds.progress n hn first hfirst with
  | between count _ early _ stands world _ =>
    rcases stands with hstands | ⟨hcancelled, -⟩
    · refine ⟨count, early, ?_, hstands, world⟩
      rw [← Option.some.inj (hstatus.symm.trans hstands)]
      exact hdone
    · rw [h.uncancelled] at hcancelled
      cases hcancelled
  | inside _ call _ _ _ _ =>
    rw [job?, h.sound.worker_of_settled (Walk.mem_settled_of_visited hvisited)] at call
    cases call

/-- A step that was visited stands at the end as its visit has left it. -/
theorem status?_of_dispatched (hn : n ∈ last.walk.dispatched) :
    run.status? n = last.status? n := by
  obtain ⟨ok, hvisited⟩ := h.exists_endedWith hn
  cases ok with
  | true => rw [status?, status?, h.finished.step?_of_completed h.sound hvisited]
  | false =>
    obtain ⟨status, hstatus, hdone, -⟩ := h.status_of_visited hvisited
    rw [h.finished.closed.failed n hvisited, hstatus, Option.map_some, lastFailed, if_pos hdone]

/-- A step that was not visited has failed over what it depends on. -/
theorem status?_of_not_dispatched (hn : n ∈ p.graph.dag.nodes)
    (hnot : n ∉ last.walk.dispatched) :
    run.status? n = some (.failed (some "dependency has failed")) :=
  h.finished.status?_of_not_dispatched h.sound h.done h.uncancelled hn hnot

theorem dag_eq : run.plan.graph.dag = p.graph.dag := h.finished.dag.trans h.sound.dag

theorem status?_of_not_mem (hn : n ∉ p.graph.dag.nodes) : run.status? n = none :=
  h.finished.status?_of_not_mem h.sound hn

end AtRest

/-! ## Two runs at their ends -/

/-- Two runs that cannot be told apart by how they ended, except for the order of the calls, the
moments, and what the walk did when. -/
structure SameEnd (run run' : Run μ Simulator) (report report' : PlanReport) : Prop where
  status : ∀ name, run.status? name = run'.status? name
  /-- The reports list the same steps in the same order, and where they stand. -/
  steps : report.steps.map (fun line => (line.name, line.status)) =
    report'.steps.map fun line => (line.name, line.status)
  outcome : report.outcome = report'.outcome
  /-- The stacks, with the states that are still to be reported. -/
  records : run.world.records = run'.world.records
  outputs : run.world.outputs = run'.world.outputs
  /-- The operations that will still end badly. -/
  failures : run.world.failures = run'.world.failures
  ticks : run.world.ticks = run'.world.ticks
  /-- The same calls were made. -/
  calls : run.world.calls.Perm run'.world.calls

/-- A step, visited in two runs, has come to the same status and has left the same behind. -/
structure SameVisit (last last' : Run μ Simulator) (own own' : String → Simulator) (n : String) :
    Prop where
  status : last.status? n = last'.status? n
  stack : AgreeAt n (own n) (own' n)
  calls : (own n).calls = (own' n).calls

namespace AtRest

variable {p q : Plan μ} {origin : Simulator} {last last' run run' : Run μ Simulator}
  {report report' : PlanReport} {start own start' own' : String → Simulator} {n : String}

/-- Two visits that began alike ended alike. -/
theorem sameVisit (h : AtRest p origin last run report start own)
    (h' : AtRest q origin last' run' report' start' own') (hgraph : q.graph = p.graph)
    (hn : n ∈ last.walk.dispatched) (hn' : n ∈ last'.walk.dispatched)
    (hbefore : ∀ m, p.graph.dag.Path n m → AgreeAt m (start n) (start' n)) :
    SameVisit last last' own own' n := by
  have hnode : n ∈ p.graph.dag.nodes := h.sound.walkDag ▸ h.sound.walk.dispatched_subset hn
  obtain ⟨first, hfirst⟩ := (h.graph.mem_nodes_iff n).1 hnode
  obtain ⟨count, early, hdone, hstatus, hown⟩ := h.exists_calls hn hfirst
  obtain ⟨count', early', hdone', hstatus', hown'⟩ := h'.exists_calls hn' (hgraph ▸ hfirst)
  have hstart : Simulator.Alike n (p.graph.dag.Path n) (start n) (start' n) :=
    { own := (h.worlds.begun n hn).trans (h'.worlds.begun n hn').symm
      read := hbefore
      calls := (h.worlds.silent n hn).trans (h'.worlds.silent n hn').symm }
  have hafter : ∀ k, Iteration.Alike n (p.graph.dag.Path n) (first.after .simulated (start n) k)
      (first.after .simulated (start' n) k) :=
    Iteration.calls_alike (h.apart n first hfirst) ⟨rfl, rfl, hstart⟩
  -- Both visits stopped at the first status that is done.
  have hcount : count = count' := by
    rcases Nat.lt_trichotomy count count' with hlt | heq | hlt
    · have hopen := early' count hlt
      rw [← (hafter count).status, hdone] at hopen
      cases hopen
    · exact heq
    · have hopen := early count' hlt
      rw [(hafter count').status, hdone'] at hopen
      cases hopen
  subst hcount
  exact
    { status := by rw [hstatus, hstatus', (hafter count).status]
      stack := by
        rw [hown, hown']
        exact (hafter count).world.own
      calls := by
        rw [hown, hown']
        exact (hafter count).world.calls }

/-- Of two runs at their ends, both or none visited a step, and with the same result. -/
theorem visits_same (h : AtRest p origin last run report start own)
    (h' : AtRest q origin last' run' report' start' own') (hgraph : q.graph = p.graph)
    (n : String) :
    (n ∈ last.walk.dispatched ↔ n ∈ last'.walk.dispatched) ∧
      (n ∈ last.walk.dispatched → SameVisit last last' own own' n) := by
  refine h.graph.wellFormed.induction_path (P := fun n =>
    (n ∈ last.walk.dispatched ↔ n ∈ last'.walk.dispatched) ∧
      (n ∈ last.walk.dispatched → SameVisit last last' own own' n)) (fun n ih => ?_) n
  have hcompleted : ∀ m, p.graph.dag.Path n m →
      (m ∈ last.walk.report.completed ↔ m ∈ last'.walk.report.completed) := fun m hm => by
    obtain ⟨hvisited, hsame⟩ := ih m hm
    rw [h.mem_completed_iff, h'.mem_completed_iff, ← hvisited]
    exact and_congr_right fun hd => by rw [(hsame hd).status]
  have hdispatched : n ∈ last.walk.dispatched ↔ n ∈ last'.walk.dispatched := by
    by_cases hn : n ∈ p.graph.dag.nodes
    · rw [h.mem_dispatched_iff hn, h'.mem_dispatched_iff (hgraph ▸ hn), hgraph]
      exact forall₂_congr hcompleted
    · have hout : n ∉ last.walk.dispatched := fun hd =>
        hn (h.sound.walkDag ▸ h.sound.walk.dispatched_subset hd)
      have hout' : n ∉ last'.walk.dispatched := fun hd =>
        hn (hgraph ▸ h'.sound.walkDag ▸ h'.sound.walk.dispatched_subset hd)
      exact ⟨fun hd => absurd hd hout, fun hd => absurd hd hout'⟩
  refine ⟨hdispatched, fun hd => h.sameVisit h' hgraph hd (hdispatched.1 hd) fun m hm => ?_⟩
  -- What the step reads was left by a visit that had ended, in both runs alike.
  have hpath : q.graph.dag.Path n m := hgraph ▸ hm
  have hm₁ := h.sound.walk.ended_dispatched m (.inl ((h.mem_dispatched_iff
    (h.sound.walkDag ▸ h.sound.walk.dispatched_subset hd)).1 hd m hm))
  obtain ⟨hm₂, hsame⟩ := ih m hm
  exact ((h.worlds.needs n hd m hm).1.trans (h.worlds.stands m hm₁).symm).trans
    ((hsame hm₁).stack.trans ((h'.worlds.stands m (hm₂.1 hm₁)).trans
      (h'.worlds.needs n (hdispatched.1 hd) m hpath).1.symm))

theorem status?_same (h : AtRest p origin last run report start own)
    (h' : AtRest q origin last' run' report' start' own') (hgraph : q.graph = p.graph)
    (n : String) : run.status? n = run'.status? n := by
  obtain ⟨hvisited, hsame⟩ := h.visits_same h' hgraph n
  by_cases hd : n ∈ last.walk.dispatched
  · rw [h.status?_of_dispatched hd, h'.status?_of_dispatched (hvisited.1 hd), (hsame hd).status]
  by_cases hn : n ∈ p.graph.dag.nodes
  · rw [h.status?_of_not_dispatched hn hd,
      h'.status?_of_not_dispatched (hgraph ▸ hn) fun hd' => hd (hvisited.2 hd')]
  · rw [h.status?_of_not_mem hn, h'.status?_of_not_mem (hgraph ▸ hn)]

/-- As much is known of every stack. -/
theorem agreeAt_same (h : AtRest p origin last run report start own)
    (h' : AtRest q origin last' run' report' start' own') (hgraph : q.graph = p.graph)
    (fqn : String) : AgreeAt fqn last.world last'.world := by
  obtain ⟨hvisited, hsame⟩ := h.visits_same h' hgraph fqn
  by_cases hd : fqn ∈ last.walk.dispatched
  · exact (h.worlds.stands fqn hd).symm.trans
      ((hsame hd).stack.trans (h'.worlds.stands fqn (hvisited.1 hd)))
  · exact (h.worlds.untouched fqn hd).1.trans
      (h'.worlds.untouched fqn fun hd' => hd (hvisited.2 hd')).1.symm

theorem failures_same (h : AtRest p origin last run report start own)
    (h' : AtRest q origin last' run' report' start' own') (hgraph : q.graph = p.graph) :
    last.world.failures = last'.world.failures := by
  obtain ⟨left, hleft⟩ := h.worlds.failures
  obtain ⟨left', hleft'⟩ := h'.worlds.failures
  rw [hleft, hleft']
  refine List.filter_congr fun mark hmark => ?_
  have hsame := (h.agreeAt_same h' hgraph mark.1).failures mark.2
  rw [hleft, hleft', List.mem_filter, List.mem_filter] at hsame
  rw [Bool.eq_iff_iff]
  exact ⟨fun hkept => (hsame.1 ⟨hmark, hkept⟩).2, fun hkept => (hsame.2 ⟨hmark, hkept⟩).2⟩

theorem calls_same (h : AtRest p origin last run report start own)
    (h' : AtRest q origin last' run' report' start' own') (hgraph : q.graph = p.graph) :
    last.world.calls.Perm last'.world.calls := by
  have hperm : last.walk.dispatched.Perm last'.walk.dispatched :=
    (List.perm_ext_iff_of_nodup h.sound.walk.nodup_dispatched h'.sound.walk.nodup_dispatched).2
      fun n => (h.visits_same h' hgraph n).1
  have hcalls : last.walk.dispatched.flatMap (fun n => (own n).calls) =
      last.walk.dispatched.flatMap fun n => (own' n).calls :=
    List.flatMap_congr fun n hn => ((h.visits_same h' hgraph n).2 hn).calls
  refine h.worlds.calls.trans (.trans ?_ h'.worlds.calls.symm)
  rw [hcalls]
  exact (hperm.flatMap_right _).append_right _

/-- Two runs at their ends cannot be told apart. -/
theorem sameEnd (h : AtRest p origin last run report start own)
    (h' : AtRest q origin last' run' report' start' own') (hgraph : q.graph = p.graph) :
    SameEnd run run' report report' := by
  have hstatus := h.status?_same h' hgraph
  have hagree := h.agreeAt_same h' hgraph
  have hsteps : report.steps.map (fun line => (line.name, line.status)) =
      report'.steps.map fun line => (line.name, line.status) := by
    rw [h.finished.report, h'.finished.report]
    exact lines_congr h.finished.graph h'.finished.graph
      (h'.dag_eq.trans ((congrArg StepGraph.dag hgraph).trans h.dag_eq.symm)) hstatus
  exact
    { status := hstatus
      steps := hsteps
      outcome := by
        have hlines : ∀ lines : List Snapshot, PlanOutcome.ofSteps lines =
            if (lines.map fun line => (line.name, line.status)).any (·.2.isFailed) then .failed
            else if (lines.map fun line => (line.name, line.status)).any (·.2.isCancelled) then
              .interrupted
            else .success := fun lines => by
          rw [List.any_map, List.any_map]
          rfl
        have houtcome : report.outcome = .ofSteps report.steps := by rw [h.finished.report]; rfl
        have houtcome' : report'.outcome = .ofSteps report'.steps := by
          rw [h'.finished.report]
          rfl
        rw [houtcome, houtcome', hlines, hlines, hsteps]
      records := by
        rw [h.world, h'.world]
        exact Table.ext_get? fun fqn => (hagree fqn).record
      outputs := by
        rw [h.world, h'.world]
        exact Table.ext_get? fun fqn => (hagree fqn).outputs
      failures := by
        rw [h.world, h'.world]
        exact h.failures_same h' hgraph
      ticks := by
        rw [h.world, h'.world]
        exact (hagree "").ticks
      calls := by
        rw [h.world, h'.world]
        exact h.calls_same h' hgraph }

end AtRest

end Run

/-- A run of a plan that keeps its steps apart, at its end. -/
theorem Plan.Ends.exists_atRest {p : Plan μ} (hp : p.graph.Sound) (hapart : p.KeepsApart)
    (hquiet : ∀ journal, p.sink.breaksAt journal = false) {walker : Walker} {origin : Simulator}
    {run : Run μ Simulator} {report : PlanReport}
    (h : p.Ends .simulated walker origin run report) (hcancelled : run.cancelled = false) :
    ∃ last start own, Run.AtRest p origin last run report start own := by
  obtain ⟨last, hreaches, hdone, hfinish⟩ := h
  have hlast := hreaches.sound hp
  have hfinished := hlast.finished hfinish
  obtain ⟨start, own, hworlds⟩ := hreaches.apart hp hapart
  refine ⟨last, start, own, hp, hapart, hquiet, hlast, hworlds, hdone, hfinished, ?_, ?_⟩
  · exact hfinished.cancelled.symm.trans hcancelled
  · rw [← Run.world_finish last, hfinish]

/-- Two plans of the same graph, whose steps keep apart, end in the same way if nobody calls them
off, wherever and however they are carried out. -/
theorem Plan.Ends.same {p q : Plan μ} (hgraph : q.graph = p.graph) (hp : p.graph.Sound)
    (hapart : p.KeepsApart) (hquiet : ∀ journal, p.sink.breaksAt journal = false)
    (hquiet' : ∀ journal, q.sink.breaksAt journal = false) {walker walker' : Walker}
    {origin : Simulator} {run run' : Run μ Simulator} {report report' : PlanReport}
    (h : p.Ends .simulated walker origin run report)
    (h' : q.Ends .simulated walker' origin run' report') (hcancelled : run.cancelled = false)
    (hcancelled' : run'.cancelled = false) : Run.SameEnd run run' report report' := by
  obtain ⟨last, start, own, hrest⟩ := h.exists_atRest hp hapart hquiet hcancelled
  have hapart' : q.KeepsApart := by
    rw [Plan.KeepsApart, hgraph]
    exact hapart
  obtain ⟨last', start', own', hrest'⟩ :=
    h'.exists_atRest (hgraph ▸ hp) hapart' hquiet' hcancelled'
  exact hrest.sameEnd hrest' hgraph

/-- Plans are made again and again, under new identities, and carried out from the same state of the
provider. However they poll, whoever is told the events without breaking down over them, and
whatever the schedules: two runs that nobody called off and that have a report end in the same
way. -/
def Plan.EndsOneWay (make : String → Except Error (Plan μ)) (origin : Simulator) : Prop :=
  ∀ (id id' : String) (p p' : Plan μ), make id = .ok p → make id' = .ok p' →
    ∀ (poll poll' : PollPolicy) (sink sink' : Sink), (∀ journal, sink.breaksAt journal = false) →
      (∀ journal, sink'.breaksAt journal = false) →
      ∀ (walker walker' : Walker) (run run' : Run μ Simulator) (report report' : PlanReport),
        Plan.Ends { p with poll, sink } .simulated walker origin run report →
        Plan.Ends { p' with poll := poll', sink := sink' } .simulated walker' origin run' report' →
        run.cancelled = false → run'.cancelled = false → Run.SameEnd run run' report report'

theorem Plan.endsOneWay_of {make : String → Except Error (Plan μ)}
    (hgraph : ∀ {id id' p p'}, make id = .ok p → make id' = .ok p' → p'.graph = p.graph)
    (hsound : ∀ {id p}, make id = .ok p → p.graph.Sound)
    (hapart : ∀ {id p}, make id = .ok p → p.KeepsApart) (origin : Simulator) :
    EndsOneWay make origin := by
  intro id id' p p' hp hp' poll poll' sink sink' hquiet hquiet' walker walker' run run' report
    report' h h' hcancelled hcancelled'
  have hsame : p'.graph = p.graph := hgraph hp hp'
  have hp : p.graph.Sound ∧ p.KeepsApart := ⟨hsound hp, hapart hp⟩
  exact Ends.same (p := { p with poll, sink }) (q := { p' with poll := poll', sink := sink' }) hsame
    hp.1 hp.2 hquiet hquiet' h h' hcancelled hcancelled'

end Rollout

import Rollout.Proofs.Workspace.Teardown

/-!
# Stacks that are destroyed are gone

After a plan that destroys stacks has ended in success, none of its stacks that are enabled has a
record at the provider. Whatever comes of the plan, all other records are as they were.

* `Destroy.asks_own`: what a call asks, and of which stacks.
* `Workspace.spares_others`: the other records, while the plan is carried out.
* `Workspace.destroy_clears`: the records when the plan has ended.
-/

namespace Rollout

open Job

namespace Destroy

variable {s : Stack} {submitted : Bool} {status : Status} {request : Request}

/-- A call for a stack that is disabled asks nothing. -/
theorem advance_of_disabled (h : s.enabled = false) (submitted : Bool) (status : Status) :
    (action s).advance submitted status =
      done (submitted, .settled (.skipped (some "disabled"))) := by
  have hattempt : attempt s submitted status = pure (submitted, .skipped (some "disabled")) := by
    rw [attempt, h]
    rfl
  simp only [action, hattempt]
  rfl

/-- A call asks about its own stack, and only if the stack is enabled. -/
theorem asks_own (h : ((action s).advance submitted status).Asks request) :
    s.enabled = true ∧ request.fqn = s.fqn := by
  constructor
  · cases henabled : s.enabled with
    | true => rfl
    | false =>
      rw [advance_of_disabled henabled] at h
      cases h
  · rcases keepsTo_action s submitted status (fun _ => False) request h with hown | ⟨_, hnone, _⟩
    · exact hown
    · exact hnone.elim

end Destroy

namespace Workspace

variable {w : Workspace} {id : String} {targets : Option (List String)} {p : Plan Bool}

/-- A stack is to be destroyed by the plan, and it is enabled. -/
def Clears (w : Workspace) (p : Plan Bool) (fqn : String) : Prop :=
  ∃ s ∈ w.members, s.fqn = fqn ∧ s.enabled = true ∧ fqn ∈ p.graph.dag.nodes

/-- While a plan is carried out that destroys stacks, the records of all others stay. -/
theorem spares_others (planned : w.destroyPlan id targets = .ok p) (poll : PollPolicy)
    (sink : Sink) {walker : Walker} {origin : Simulator} {run : Run Bool Simulator}
    (reached : Plan.Reaches { p with poll, sink } .simulated walker origin run) {fqn : String}
    (hother : ¬ w.Clears p fqn) : run.world.records.get? fqn = origin.records.get? fqn := by
  have hgraph : p.graph.Sound := sound_plan planned
  refine Plan.Reaches.holds_of_requests (p := { p with poll, sink }) hgraph reached
    (P := fun world : Simulator => world.records.get? fqn = origin.records.get? fqn) ?_ rfl
  intro name step hstep memo status request hasks world hworld
  obtain ⟨s, hs, rfl, rfl⟩ := exists_member_of_get? planned hstep
  obtain ⟨henabled, hown⟩ := Destroy.asks_own hasks
  have hne : fqn ≠ request.fqn := by
    rw [hown]
    rintro rfl
    exact hother ⟨s, hs, rfl, henabled, (hgraph.mem_nodes_iff _).2 ⟨_, hstep⟩⟩
  exact (Simulator.respond_elsewhere hne world).record.trans hworld

/-- After a success the enabled stacks of the plan have no record at the provider. Whatever the
outcome, the records of all other stacks are as they were. -/
theorem destroy_clears (planned : w.destroyPlan id targets = .ok p) (poll : PollPolicy)
    (sink : Sink) {walker : Walker} {origin : Simulator} {run : Run Bool Simulator}
    {report : PlanReport}
    (ended : Plan.Ends { p with poll, sink } .simulated walker origin run report) :
    (report.outcome = .success →
      ∀ fqn, w.Clears p fqn → run.world.records.get? fqn = none) ∧
    ∀ fqn, ¬ w.Clears p fqn → run.world.records.get? fqn = origin.records.get? fqn := by
  constructor
  · rintro success _ ⟨s, hs, rfl, henabled, hnode⟩
    have hgraph : p.graph.Sound := sound_plan planned
    have hfor : p.IsFor w Destroy.action false := isFor_plan planned
    obtain ⟨_, status, -, hok, s', hs', hfqn, -, hgone⟩ :=
      Plan.Ends.keeps_of_success (p := { p with poll, sink }) hgraph (Destroy.contract _ hfor) ended
        (fun _ _ => trivial) success hnode
    obtain rfl := List.inj_on_of_nodup_map (nodup_fqns planned) hs' hs hfqn
    exact hgone henabled hok
  · intro fqn hother
    obtain ⟨last, reached, hworld⟩ := ended.exists_reaches
    rw [hworld]
    exact spares_others planned poll sink reached hother

end Workspace

/-! ## Two of three stacks -/

/-- All three stacks are there. -/
def Simulator.filled : List Simulator.Event :=
  ["n-a", "n-b", "n-c"].map fun fqn => .insert ⟨fqn, .createComplete, none, .empty⟩

namespace Workspace

/-- The last stack is destroyed, and the one before it is skipped. The multiplier, a float, plays no
role as long as nothing waits. -/
theorem plays_cleared (multiplier : Float) :
    (StepGraph.ofSteps (row.members.map (row.stepOf Destroy.action false))).toOption.any
      (fun graph => (Plan.resolveTargets graph.transpose.toList ["b"]).toOption.any fun names =>
        (graph.transpose.restrict names).toOption.any fun graph =>
          decide ("n-c" ∈ graph.dag.nodes) && decide ("n-a" ∉ graph.dag.nodes) &&
          (Plan.plays
            { id := "one", description := "Destroy stacks", graph,
              poll := ⟨0, 0, multiplier, false⟩ }
            .simulated .sequential (({} : Simulator).after Simulator.filled)
            (List.replicate 6 (.work "n-c"))).any fun mid =>
              mid.goesOnAtOnce "n-c" &&
              ((mid.setPhase "n-c" .yielding).play .simulated (visit "n-c" 5 ++ visit "n-b" 5)).any
                fun last => (last.isOver && last.workers.isEmpty) &&
                  last.finish.2.any (·.outcome == .success)) = true := by
  cbv

/-- The last stack is gone. The one between, which is disabled, is there as it was, and so is the
first one, which is not in the plan. -/
theorem destroy_clears_row :
    ∃ (p : Plan Bool) (run : Run Bool Simulator) (report : PlanReport),
      row.destroyPlan "one" (some ["b"]) = .ok p ∧
      Plan.Ends { p with poll := .fixed 0 } .simulated .sequential
        (({} : Simulator).after Simulator.filled) run report ∧
      report.outcome = .success ∧ run.world.records.get? "n-c" = none ∧
      run.world.records.get? "n-b" = some ⟨⟨"n-b", .createComplete, none, .empty⟩, []⟩ ∧
      run.world.records.get? "n-a" = some ⟨⟨"n-a", .createComplete, none, .empty⟩, []⟩ := by
  obtain ⟨graph, hgraph, h⟩ := (Option.any_eq_true _ _).1 (plays_cleared 1.0)
  obtain ⟨names, hnames, h⟩ := (Option.any_eq_true _ _).1 h
  obtain ⟨narrowed, hnarrowed, h⟩ := (Option.any_eq_true _ _).1 h
  obtain ⟨hnodes, h⟩ := Bool.and_eq_true_iff.1 h
  obtain ⟨mid, hmid, h⟩ := (Option.any_eq_true _ _).1 h
  obtain ⟨hgoes, h⟩ := Bool.and_eq_true_iff.1 h
  obtain ⟨last, hlast, h⟩ := (Option.any_eq_true _ _).1 h
  obtain ⟨hdone, h⟩ := Bool.and_eq_true_iff.1 h
  obtain ⟨report, hreport, hsuccess⟩ := (Option.any_eq_true _ _).1 h
  rw [Bool.and_eq_true, decide_eq_true_eq, decide_eq_true_eq] at hnodes
  rw [beq_iff_eq] at hsuccess
  have hplan := destroyPlan_eq_ok (Except.toOption_eq_some_iff.1 hgraph)
    (Except.toOption_eq_some_iff.1 hnames) (Except.toOption_eq_some_iff.1 hnarrowed) "one"
  have hends := Plan.ends_of_plays (Plan.plays_of_goesOnAtOnce hmid hgoes hlast) hdone hreport
  obtain ⟨hgone, hothers⟩ := destroy_clears hplan (.fixed 0) .sound hends
  refine ⟨_, _, report, hplan, hends, hsuccess, hgone hsuccess "n-c" ?last, hothers "n-b" ?middle,
    hothers "n-a" ?first⟩
  case last =>
    exact ⟨_, List.mem_cons_of_mem _ (List.mem_cons_of_mem _ List.mem_cons_self), rfl, rfl,
      hnodes.1⟩
  case middle =>
    rintro ⟨s, hs, hfqn, henabled, -⟩
    obtain rfl := List.inj_on_of_nodup_map (nodup_fqns hplan) hs
      (List.mem_cons_of_mem _ List.mem_cons_self) hfqn
    cases henabled
  case first =>
    rintro ⟨s, hs, hfqn, -, hnode⟩
    exact hnodes.2 hnode

end Workspace

end Rollout

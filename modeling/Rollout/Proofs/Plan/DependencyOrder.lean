import Rollout.Proofs.Plan.Build
import Rollout.Proofs.Plan.Closing

/-!
# Steps are advanced after all they depend on

* `Run.Sound.worker_of_call`: only a worker calls the action of its step.
* `Run.Sound.dependency_of_worker`: where a worker is, all that its step depends on has ended well.
* `Plan.call_after_dependencies`: when a call of an action begins, all that the step depends on is
  complete or skipped, and stays so.
-/

namespace Rollout

variable {μ σ : Type}

namespace Run

variable {p : Plan μ} {r s : Run μ σ} {name : String}

/-- A call begins in a turn of the worker of the step. -/
theorem Sound.worker_of_call (hr : r.Sound p) {provider : Provider σ} {move : Move}
    (h : r.move? provider move = some s) {status : Status}
    (called : s.calls = (name, status) :: r.calls) :
    ∃ worker, r.workers.get? name = some worker := by
  have hnot : s.calls ≠ r.calls := by
    rw [called]
    exact List.cons_ne_self _ _
  cases moved_of_move? (fun _ _ hw => hr.exists_step hw) h with
  | passed _ _ _ _ calls _ _ => exact absurd calls hnot
  | turned working found mover active turn =>
    obtain ⟨_, _, _, _, _, heffect⟩ := turn.effect
    cases heffect with
    | waits _ _ _ calls => exact absurd calls hnot
    | calls _ _ _ _ calls =>
      rw [called, List.cons.injEq, Prod.mk.injEq] at calls
      obtain ⟨⟨rfl, -⟩, -⟩ := calls
      exact ⟨_, working⟩
    | carriesOn _ _ _ _ _ calls => exact absurd calls hnot
    | concludes _ _ _ _ calls _ => exact absurd calls hnot
    | ends _ _ _ _ _ calls => exact absurd calls hnot
    | interrupted _ _ _ _ calls => exact absurd calls hnot
  | settled finished after =>
    subst after
    exact absurd rfl hnot

/-- The workers of all that a step depends on have ended well before its own is there. -/
theorem Sound.dependency_of_worker (hr : r.Sound p) {worker : Worker μ}
    (hw : r.workers.get? name = some worker) {m : String} (hm : p.graph.dag.Path name m) :
    r.EndedWith m true := by
  have hflight := (hr.staffed name).2 ⟨worker, hw⟩
  rw [← hr.walkDag] at hm
  exact .inr (hr.walk.completed_of_path (Walk.mem_inFlight_iff.1 hflight).1 hm)

end Run

/-- When a call of the action of a step begins, every step that it depends on is complete or
skipped, and stays exactly as it is until the run is finished. Those are the steps it requires,
directly or not, and in reverse the given steps that require it. -/
theorem Plan.call_after_dependencies {id description : String} {steps : List (Step μ)}
    {targets : Option (List String)} {reverse : Bool} {p : Plan μ}
    (built : Plan.build id description steps targets reverse = .ok p) (poll : PollPolicy)
    (sink : Sink) {provider : Provider σ} {walker : Walker} {world : σ} {run next : Run μ σ}
    (reached : Plan.Reaches { p with poll, sink } provider walker world run) {move : Move}
    (moved : run.move? provider move = some next) {name : String} {status : Status}
    (called : next.calls = (name, status) :: run.calls) :
    (∀ m, p.graph.dag.Path name m →
      run.stepIs m Status.isOk = true ∧
      ∀ later, Run.Steps provider next later →
        later.status? m = run.status? m ∧ later.finish.1.status? m = run.status? m) ∧
    ∀ m, p.graph.dag.Path name m ↔
      if reverse then Relation.TransGen (StepGraph.Requires steps) m name
      else Relation.TransGen (StepGraph.Requires steps) name m := by
  have hgraph := Plan.sound_build built
  have hr : run.Sound { p with poll, sink } :=
    Plan.Reaches.sound (p := { p with poll, sink }) hgraph reached
  obtain ⟨worker, hw⟩ := hr.worker_of_call moved called
  refine ⟨fun m hm => ?_, Plan.path_build_iff built ?_⟩
  · have hend := hr.dependency_of_worker hw hm
    refine ⟨Run.stepIs_eq_true_iff.2 (hr.well m hend), fun later hlater => ?_⟩
    obtain ⟨hnext, hsame⟩ := hend.move hr moved
    obtain ⟨hend', hsame'⟩ := hnext.steps (hr.move moved) hlater
    have hlast := Run.step?_finish ((hr.move moved).steps hlater) hend'
    rw [Run.status?, Run.status?, Run.status?, hlast, hsame', hsame]
    exact ⟨rfl, rfl⟩
  · obtain ⟨step, hs, -⟩ := hr.exists_step hw
    exact hr.dag ▸ (hr.graph.mem_nodes_iff name).2 ⟨step, hs⟩

/-- The moves that bring the pair of steps to the call of the second one. -/
theorem Plan.plays_pair_call (poll : PollPolicy) :
    ((Plan.pair (.complete none) poll).plays .idle .sequential ()
      [.work "first", .work "first", .work "first", .work "first", .work "first", .settle "first",
        .work "second", .work "second"]).any (fun run =>
      (run.move? .idle (.work "second")).any fun next =>
        next.calls = ("second", .pending) :: run.calls) = true := by
  cbv

/-- When the second of two steps is called, the first one has ended well and stays as it is. -/
theorem Plan.call_after_dependencies_pair :
    ∃ run next : Run Unit Unit, next.calls = ("second", .pending) :: run.calls ∧
      run.stepIs "first" Status.isOk = true ∧
      ∀ later, Run.Steps .idle next later → later.status? "first" = run.status? "first" := by
  obtain ⟨run, hrun, h⟩ := (Option.any_eq_true _ _).1 (Plan.plays_pair_call .standard)
  obtain ⟨next, hnext, hcalls⟩ := (Option.any_eq_true _ _).1 h
  obtain ⟨hdeps, -⟩ := Plan.call_after_dependencies (Plan.build_pair (.complete none)) .standard
    .sound (Plan.reaches_of_plays hrun) hnext (of_decide_eq_true hcalls)
  obtain ⟨hok, hstays⟩ := hdeps "first" (Plan.path_pair _ _)
  exact ⟨run, next, of_decide_eq_true hcalls, hok, fun later hlater => (hstays later hlater).1⟩

end Rollout

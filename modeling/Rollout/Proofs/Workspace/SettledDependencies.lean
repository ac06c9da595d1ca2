import Rollout.Proofs.Plan.Recording
import Rollout.Proofs.Workspace.BuildStages
import Rollout.Proofs.Workspace.Requirements
import Rollout.Proofs.Workspace.Schedule

/-!
# Templates are submitted on top of settled stacks

A step that builds a stack ends well only when the stack is there and no operation on it is under
way, but for stacks that are to be left alone: of these it is not asked what they are doing.

* `Build.Stage.exists_record`: how a stack stands when its step has ended well.
* `Workspace.settled_of_needs`: when a template is submitted, the enabled stacks of which its step
  needs the steps are there and settled, locked ones that were in progress from the first excepted.
* `Workspace.build_on_settled`: so it is with all stacks that its stack requires.
* `Workspace.build_on_busy`: such an exception.
-/

namespace Rollout

namespace Build

variable {p : Plan (Option Change)} {w : Workspace} {origin : Simulator} {s : Stack}
  {world : Recorded Simulator} {change : Option Change} {status : Status}

/-- When its step has ended well the stack is there. It is not in progress, unless it is to be left
alone and was so from the first. -/
theorem Stage.exists_record (h : Stage p w origin s world change status)
    (hok : status.isOk = true) :
    ∃ record, world.inner.records.get? s.fqn = some record ∧
      (record.stack.state.isInProgress = true → s.isUpdateBlocked = true ∧
        ∃ old, origin.records.get? s.fqn = some old ∧ old.stack.state.isInProgress = true) := by
  cases h with
  | waits opened =>
    rw [Status.not_isOk_of_not_isDone opened] at hok
    cases hok
  | underWay opened =>
    rw [Status.not_isOk_of_not_isDone opened] at hok
    cases hok
  | leftAlone blocked there _ progress => exact ⟨_, there, fun h => ⟨blocked, progress h⟩⟩
  | unchanged _ there _ settled _ =>
    refine ⟨_, there, fun h => ?_⟩
    rw [settled] at h
    cases h
  | complete _ there completed =>
    refine ⟨_, there, fun h => ?_⟩
    rw [Simulator.not_isInProgress_of_isComplete completed] at h
    cases h
  | failed => cases hok

end Build

namespace Workspace

/-- Whenever a build asks to create or to update a stack, all enabled stacks of which its step needs
the steps, directly or not, are there, and they are not in progress, except those that are to be
left alone and were in progress from the first. That includes stacks of which this one reads an
output by their names at the provider. -/
theorem settled_of_needs {w : Workspace} (lookups : w.lookups = .standard) {id : String}
    {targets : Option (List String)} {p : Plan (Option Change)}
    (planned : w.buildPlan id targets = .ok p) (poll : PollPolicy) (sink : Sink)
    (events : List Simulator.Event) {walker : Walker} {run next : Run (Option Change) Simulator}
    (reached : Plan.Reaches { p with poll, sink } .simulated walker
      (({} : Simulator).after events) run) {move : Move}
    (moved : run.move? .simulated move = some next) {operation : Operation} {fqn : String}
    (called : next.world.calls = (operation, fqn) :: run.world.calls)
    (submits : operation = .create ∨ operation = .update) :
    ∃ s ∈ w.members, s.fqn = fqn ∧ ∀ t ∈ w.members, t.enabled = true →
      Relation.TransGen w.Needs s.fqn t.fqn →
        ∃ record, run.world.records.get? t.fqn = some record ∧
          (record.stack.state.isInProgress = true → t.isUpdateBlocked = true ∧
            ∃ old, (({} : Simulator).after events).records.get? t.fqn = some old ∧
              old.stack.state.isInProgress = true) := by
  have horderly : (({} : Simulator).after events).Throughout Simulator.Orderly :=
    Simulator.lasting_orderly.after Simulator.Lasting.throughout_empty fun _ _ _ => nofun
  generalize ({} : Simulator).after events = origin at reached horderly ⊢
  have hgraph := sound_plan planned
  have hfor : p.IsFor w (Build.action w) none := isFor_plan planned
  -- The contract is about a provider that notes what it is asked: the run is told again with one.
  obtain ⟨exchanges, hnoted⟩ := reached.recorded
  obtain ⟨exchanges', hmoved⟩ := Run.move?_noted _ moved exchanges
  have hr := Plan.Reaches.sound (p := { p with poll, sink }) hgraph hnoted
  have hkeeps := Plan.Reaches.keeps (p := { p with poll, sink }) hgraph
    (Build.contract _ hgraph hfor lookups origin horderly) hnoted fun _ _ => ⟨rfl, rfl⟩
  obtain ⟨worker, hworker⟩ := hkeeps.worker_of_call hr (fun world => world.inner.calls)
    (fun world => Simulator.calls_respond world.inner) (fun _ _ hasks => hasks) hmoved called
    (by rcases submits with rfl | rfl <;> simp)
  obtain ⟨s, hs, rfl, hnode⟩ :=
    Plan.IsFor.exists_of_worker (p := { p with poll, sink }) hfor hr hworker
  refine ⟨s, hs, rfl, fun t ht henabled hneeds => ?_⟩
  have hpath : p.graph.dag.Path s.fqn t.fqn := (path_plan_iff planned hnode t.fqn).2 hneeds
  obtain ⟨_, status, hok, t', ht', hfqn, -, hstands⟩ :=
    hkeeps.of_ended hr (hr.dependency_of_worker hworker hpath)
  obtain rfl := List.inj_on_of_nodup_map (nodup_fqns planned) ht' ht hfqn
  exact (hstands henabled).exists_record hok

/-- Whenever a build asks to create or to update a stack, all enabled stacks of the configuration
that it requires, directly or not, are there, and they are not in progress, except those that are to
be left alone and were in progress from the first. So it is for all targets, environments and forced
stacks, whatever has happened to the provider before, whatever the schedule, and whether or not the
run was called off. -/
theorem build_on_settled {c : Config} {w : Workspace} (hvalid : c.validate = .ok ())
    (hw : w.Serves c) {id : String} {targets : Option (List String)} {p : Plan (Option Change)}
    (planned : w.buildPlan id targets = .ok p) (poll : PollPolicy) (sink : Sink)
    (events : List Simulator.Event) {walker : Walker} {run next : Run (Option Change) Simulator}
    (reached : Plan.Reaches { p with poll, sink } .simulated walker
      (({} : Simulator).after events) run) {move : Move}
    (moved : run.move? .simulated move = some next) {operation : Operation} {fqn : String}
    (called : next.world.calls = (operation, fqn) :: run.world.calls)
    (submits : operation = .create ∨ operation = .update) :
    ∃ s ∈ w.members, s.fqn = fqn ∧ ∀ t ∈ w.members, t.enabled = true →
      Relation.TransGen c.Requires s.name t.name →
        ∃ record, run.world.records.get? t.fqn = some record ∧
          (record.stack.state.isInProgress = true → t.isUpdateBlocked = true ∧
            ∃ old, (({} : Simulator).after events).records.get? t.fqn = some old ∧
              old.stack.state.isInProgress = true) := by
  obtain ⟨s, hs, hfqn, hsettled⟩ :=
    settled_of_needs hw.lookups planned poll sink events reached moved called submits
  exact ⟨s, hs, hfqn, fun t ht henabled hrequires =>
    hsettled t ht henabled (hw.needs_of_requires hvalid hs ht hrequires)⟩

end Workspace

/-! ## A locked stack that is busy -/

/-- Three stacks in a row. The one in the middle of the row is locked, and the last one of the row
requires both others. -/
def Config.busy : Config where
  scope := "n"
  execution := {}
  definitions :=
    [{ name := "a", requires := ["c"], locked := true },
      { name := "b", requires := ["a", "c"], templateBody := some "t" },
      { name := "c", templateBody := some "t" }]

/-- The locked stack has been submitted and will not be there for a while. The other one has been
submitted too, and is there. -/
def Simulator.busy : List Simulator.Event :=
  [.request (.create ⟨"n-c", .ofBody "t", .empty⟩), .request (.describe "n-c"), .ticks 3,
    .request (.create ⟨"n-a", .ofBody "t", .empty⟩)]

namespace Workspace

/-- The workspace of that configuration. -/
def busy : Workspace where
  scope := "n"
  delimiter := "-"
  execution := {}
  members :=
    [⟨"a", "n-a", "inline", none, ["c"], .empty, .empty, true, true, false⟩,
      ⟨"b", "n-b", "inline", some "t", ["a", "c"], .empty, .empty, true, false, false⟩,
      ⟨"c", "n-c", "inline", some "t", [], .empty, .empty, true, false, false⟩]

theorem serves_busy : busy.Serves Config.busy := by
  have hof : ofConfig Config.busy = .ok busy := by cbv
  exact ⟨busy, {}, [], hof, rfl⟩

/-- The moves after which the last stack of the row is to be created. -/
theorem plays_busy :
    (StepGraph.ofSteps (busy.members.map (busy.stepOf (Build.action busy) none))).toOption.any
      (fun graph =>
        (Plan.plays { id := "one", description := "Create/Update stacks", graph, poll := .standard }
          .simulated .sequential (({} : Simulator).after Simulator.busy)
          (visit "n-c" 7 ++ visit "n-a" 6 ++ List.replicate 4 (.work "n-b"))).any fun run =>
            (run.move? .simulated (.work "n-b")).any fun next =>
              decide (next.world.calls = (.create, "n-b") :: run.world.calls) &&
                run.world.stateOf? "n-a" == some .createInProgress) = true := by
  decide +kernel

theorem exists_run_busy :
    ∃ (p : Plan (Option Change)) (run next : Run (Option Change) Simulator),
      busy.buildPlan "one" none = .ok p ∧
      Plan.Reaches { p with poll := .standard } .simulated .sequential
        (({} : Simulator).after Simulator.busy) run ∧
      run.move? .simulated (.work "n-b") = some next ∧
      next.world.calls = (.create, "n-b") :: run.world.calls ∧
      run.world.stateOf? "n-a" = some .createInProgress := by
  obtain ⟨graph, hgraph, h⟩ := (Option.any_eq_true _ _).1 plays_busy
  obtain ⟨run, hrun, h⟩ := (Option.any_eq_true _ _).1 h
  obtain ⟨next, hnext, h⟩ := (Option.any_eq_true _ _).1 h
  rw [Bool.and_eq_true, decide_eq_true_eq, beq_iff_eq] at h
  exact ⟨_, run, next, buildPlan_eq_ok (Except.toOption_eq_some_iff.1 hgraph) "one",
    Plan.reaches_of_plays hrun, hnext, h⟩

/-- A stack is created while a locked one that it requires is still being created. -/
theorem build_on_busy :
    Config.busy.validate = .ok () ∧ busy.Serves Config.busy ∧ Config.busy.Requires "b" "a" ∧
    ∃ (p : Plan (Option Change)) (run next : Run (Option Change) Simulator),
      busy.buildPlan "one" none = .ok p ∧
      Plan.Reaches { p with poll := .standard } .simulated .sequential
        (({} : Simulator).after Simulator.busy) run ∧
      run.move? .simulated (.work "n-b") = some next ∧
      next.world.calls = (.create, "n-b") :: run.world.calls ∧
      run.world.stateOf? "n-a" = some .createInProgress := by
  have hvalid : Config.busy.validate = .ok () := by cbv
  have hrequires : Config.busy.Requires "b" "a" :=
    ⟨_, List.mem_cons_of_mem _ List.mem_cons_self, rfl, by decide, .inl List.mem_cons_self⟩
  exact ⟨hvalid, serves_busy, hrequires, exists_run_busy⟩

/-- The first stack of the row, which is not locked, is there and settled at that moment. -/
theorem build_on_settled_busy :
    ∃ run : Run (Option Change) Simulator,
      (∃ p, busy.buildPlan "one" none = .ok p ∧ Plan.Reaches { p with poll := .standard } .simulated
        .sequential (({} : Simulator).after Simulator.busy) run) ∧
      ∃ record, run.world.records.get? "n-c" = some record ∧
        record.stack.state.isInProgress = false := by
  have hvalid : Config.busy.validate = .ok () := by cbv
  obtain ⟨p, run, next, hplan, hreaches, hmoved, hcalls, -⟩ := exists_run_busy
  obtain ⟨s, hs, hfqn, hsettled⟩ := build_on_settled hvalid serves_busy hplan .standard p.sink
    Simulator.busy hreaches hmoved hcalls (.inl rfl)
  obtain rfl := List.inj_on_of_nodup_map (nodup_fqns hplan) hs
    (List.mem_cons_of_mem _ List.mem_cons_self) hfqn
  have hrequires : Config.busy.Requires "b" "c" :=
    ⟨_, List.mem_cons_of_mem _ List.mem_cons_self, rfl, by decide,
      .inl (List.mem_cons_of_mem _ List.mem_cons_self)⟩
  obtain ⟨record, hrecord, hprogress⟩ := hsettled _
    (List.mem_cons_of_mem _ (List.mem_cons_of_mem _ List.mem_cons_self)) rfl (.single hrequires)
  refine ⟨run, ⟨p, hplan, hreaches⟩, record, hrecord, ?_⟩
  rw [← Bool.not_eq_true]
  exact fun h => absurd (hprogress h).1 (by decide)

end Workspace

end Rollout

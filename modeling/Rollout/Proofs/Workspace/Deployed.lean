import Rollout.Proofs.Plan.Recording
import Rollout.Proofs.Workspace.BuildStages
import Rollout.Proofs.Workspace.Requirements
import Rollout.Proofs.Workspace.Schedule

/-!
# What a successful build leaves

After a successful build the template of every stack has been submitted, and the stack has its hash.
That does not say that it was deployed: the hash is that of the template submitted last, and an
update that was rolled back leaves it too.

* `Build.Stage.deployed`: how a stack stands when its step has ended well.
* `Workspace.build_deploys`: so stand all stacks after a success.
* `Workspace.build_after_rollback`: a success after which a stack is still rolled back.
-/

namespace Rollout

namespace Build

variable {p : Plan (Option Change)} {w : Workspace} {origin : Simulator} {s : Stack}
  {world : Recorded Simulator} {change : Option Change} {status : Status}

/-- A stack that an update can find settled was created or updated, or its last update was rolled
back, or its deletion failed. -/
theorem state_of_settled {state : StackState}
    (husual : state.isFailed = true → state = .deleteFailed)
    (hsettled : state.isInProgress = false) (hpresent : state.isDeleted = false)
    (hsound : state ≠ .rollbackComplete) :
    state.isComplete = true ∨ state = .updateRollbackComplete ∨ state = .deleteFailed := by
  cases state with
  | createComplete | updateComplete => exact .inl rfl
  | updateRollbackComplete => exact .inr (.inl rfl)
  | deleteFailed => exact .inr (.inr rfl)
  | rollbackComplete => exact absurd rfl hsound
  | createFailed | rollbackFailed | updateRollbackFailed => cases husual rfl
  | deleteComplete => cases hpresent
  | _ => cases hsettled

/-- When the step of a stack that is not to be left alone has ended well, its template has been
submitted. The stack is complete, unless the template is the one that was submitted last before. -/
theorem Stage.deployed (h : Stage p w origin s world change status) (hok : status.isOk = true)
    (hopen : s.isUpdateBlocked = false) (husual : world.inner.Throughout Simulator.Usual) :
    ∃ template record, Submitted p w s template world ∧
      world.inner.records.get? s.fqn = some record ∧
      (record.stack.state.isComplete = true ∨ status = .skipped (some "nochange") ∧
        (record.stack.state = .updateRollbackComplete ∨ record.stack.state = .deleteFailed)) := by
  cases h with
  | waits opened =>
    rw [Status.not_isOk_of_not_isDone opened] at hok
    cases hok
  | underWay opened =>
    rw [Status.not_isOk_of_not_isDone opened] at hok
    cases hok
  | leftAlone blocked =>
    rw [hopen] at blocked
    cases blocked
  | @unchanged template record submitted there present settled sound =>
    refine ⟨template, record, submitted, there, ?_⟩
    have hstate := husual s.fqn record there record.stack.state List.mem_cons_self
    exact (state_of_settled hstate settled present sound).imp_right fun h => ⟨rfl, h⟩
  | complete submitted there completed => exact ⟨_, _, submitted, there, .inl completed⟩
  | failed => cases hok

end Build

namespace Workspace

/-- Let a build end with success at a provider that notes what it is asked, whatever has been asked
of it before. Then of each planned stack that is enabled and not to be left alone exactly one
template was submitted, and the stack has its hash. If the stack reads outputs only of stacks that
its step depends on, that is still its template. The stack is complete, unless the template was the
one that had been submitted last: then it is as the operation after that left it. -/
theorem build_deploys {c : Config} {w : Workspace} (hw : w.Serves c) {id : String}
    {targets : Option (List String)} {p : Plan (Option Change)}
    (planned : w.buildPlan id targets = .ok p) (poll : PollPolicy) (sink : Sink)
    (events : List Simulator.Event) (asked : ∀ stack, .insert stack ∉ events) {walker : Walker}
    {run : Run (Option Change) (Recorded Simulator)} {report : PlanReport}
    (ended : Plan.Ends { p with poll, sink } Provider.simulated.recorded walker
      ⟨({} : Simulator).after events, []⟩ run report)
    (success : report.outcome = .success) {s : Stack} (hs : s ∈ w.members)
    (included : s.fqn ∈ p.keys) (enabled : s.enabled = true) (hopen : s.isUpdateBlocked = false) :
    ∃ template record, run.world.submissions s.fqn = [Build.submission s template] ∧
      ((∀ fqn, w.Reads s fqn → p.graph.dag.Path s.fqn fqn) →
        w.Renders s run.world.inner template) ∧
      run.world.inner.records.get? s.fqn = some record ∧
      record.stack.templateHash = some template.hash ∧
      (record.stack.state = .createComplete ∨ record.stack.state = .updateComplete ∨
        run.status? s.fqn = some (.skipped (some "nochange")) ∧
          (record.stack.state = .updateRollbackComplete ∨ record.stack.state = .deleteFailed)) := by
  have hgraph := sound_plan planned
  have hfor : p.IsFor w (Build.action w) none := isFor_plan planned
  have horderly : (({} : Simulator).after events).Throughout Simulator.Orderly :=
    Simulator.lasting_orderly.after Simulator.Lasting.throughout_empty fun _ _ _ => nofun
  have husual : run.world.inner.Throughout Simulator.Usual :=
    Plan.Ends.preserves (p := { p with poll, sink })
      (P := fun world => world.inner.Throughout Simulator.Usual) hgraph ended
      (fun world request h => Simulator.lasting_usual.respond h request)
      (Simulator.lasting_usual.after Simulator.Lasting.throughout_empty fun stack hmem =>
        absurd hmem (asked stack))
  obtain ⟨change, status, hstatus, hok, s', hs', hfqn, -, hstands⟩ :=
    Plan.Ends.keeps_of_success (p := { p with poll, sink }) hgraph
      (Build.contract _ hgraph hfor hw.lookups _ horderly) ended (fun _ _ => ⟨rfl, rfl⟩) success
      included
  obtain rfl := List.inj_on_of_nodup_map (nodup_fqns planned) hs' hs hfqn
  obtain ⟨template, record, submitted, hrecord, hstate⟩ :=
    (hstands enabled).deployed hok hopen husual
  refine ⟨template, record, submitted.once, submitted.rendered, hrecord,
    submitted.hash record hrecord, ?_⟩
  rcases hstate with hcomplete | ⟨rfl, hleft⟩
  · rcases (Simulator.isComplete_iff _).1 hcomplete with h | h
    · exact .inl h
    · exact .inr (.inl h)
  · exact .inr (.inr ⟨hstatus, hleft⟩)

end Workspace

/-! ## An update that was rolled back -/

/-- Two stacks, of which the second reads an output of the first. -/
def Config.rolledBack : Config where
  scope := "n"
  execution := {}
  definitions :=
    [{ name := "a", templateBody := some "t" },
      { name := "b", vars := .ofList [("u", "$\x7boutput a::U\x7d")],
        templateBody := some "\x7b\x7bu\x7d\x7d" }]

/-- The first stack was created with another template, and the update to its own was rolled back. -/
def Simulator.rolledBack : List Simulator.Event :=
  [.outputs "n-a" (.ofList [("U", "v")]), .request (.create ⟨"n-a", .ofBody "s", .empty⟩),
    .request (.describe "n-a"), .fail "n-a" .update,
    .request (.update ⟨"n-a", .ofBody "t", .empty⟩), .request (.describe "n-a"),
    .request (.describe "n-a")]

namespace Workspace

/-- The workspace of that configuration. -/
def rolledBack : Workspace where
  scope := "n"
  delimiter := "-"
  execution := {}
  members :=
    [⟨"a", "n-a", "inline", some "t", [], .empty, .empty, true, false, false⟩,
      ⟨"b", "n-b", "inline", some "\x7b\x7bu\x7d\x7d", ["a"],
        .ofList [("u", "$\x7boutput a::U\x7d")], .empty, true, false, false⟩]

theorem serves_rolledBack : rolledBack.Serves Config.rolledBack := by
  have hof : ofConfig Config.rolledBack = .ok rolledBack := by cbv
  exact ⟨rolledBack, {}, [], hof, rfl⟩

/-- The first stack is found as it is, and the second one is created. -/
theorem plays_rolledBack :
    (StepGraph.ofSteps (rolledBack.members.map
      (rolledBack.stepOf (Build.action rolledBack) none))).toOption.any (fun graph =>
        decide ("n-b" ∈ graph.dag.nodes) &&
        (Plan.plays { id := "one", description := "Create/Update stacks", graph, poll := .fixed 0 }
          Provider.simulated.recorded .sequential
          ⟨({} : Simulator).after Simulator.rolledBack, []⟩
          (visit "n-a" 7 ++ List.replicate 7 (.work "n-b"))).any fun mid =>
            mid.goesOnAtOnce "n-b" &&
            ((mid.setPhase "n-b" .yielding).play Provider.simulated.recorded (visit "n-b" 5)).any
              fun last => (last.isOver && last.workers.isEmpty) && last.finish.2.any fun report =>
                report.outcome == .success &&
                  last.finish.1.world.inner.stateOf? "n-a" == some .updateRollbackComplete &&
                  last.finish.1.status? "n-b" == some (.complete (some Change.create.reason)))
      = true := by
  decide +kernel

theorem exists_run_rolledBack :
    ∃ (p : Plan (Option Change)) (run : Run (Option Change) (Recorded Simulator))
      (report : PlanReport), rolledBack.buildPlan "one" none = .ok p ∧ "n-b" ∈ p.keys ∧
      Plan.Ends { p with poll := .fixed 0 } Provider.simulated.recorded .sequential
        ⟨({} : Simulator).after Simulator.rolledBack, []⟩ run report ∧
      report.outcome = .success ∧
      run.world.inner.stateOf? "n-a" = some .updateRollbackComplete ∧
      run.status? "n-b" = some (.complete (some Change.create.reason)) := by
  obtain ⟨graph, hgraph, h⟩ := (Option.any_eq_true _ _).1 plays_rolledBack
  obtain ⟨hnode, h⟩ := Bool.and_eq_true_iff.1 h
  obtain ⟨mid, hmid, h⟩ := (Option.any_eq_true _ _).1 h
  obtain ⟨hgoes, h⟩ := Bool.and_eq_true_iff.1 h
  obtain ⟨last, hlast, h⟩ := (Option.any_eq_true _ _).1 h
  obtain ⟨hdone, h⟩ := Bool.and_eq_true_iff.1 h
  obtain ⟨report, hreport, h⟩ := (Option.any_eq_true _ _).1 h
  rw [Bool.and_eq_true, Bool.and_eq_true, beq_iff_eq, beq_iff_eq, beq_iff_eq] at h
  exact ⟨_, last.finish.1, report,
    buildPlan_eq_ok (Except.toOption_eq_some_iff.1 hgraph) "one", of_decide_eq_true hnode,
    Plan.ends_of_plays (Plan.plays_of_goesOnAtOnce hmid hgoes hlast) hdone hreport, h.1.1, h.1.2,
    h.2⟩

/-- A build is a success although a stack of the plan, which is not locked, is still rolled back. -/
theorem build_after_rollback :
    Config.rolledBack.validate = .ok () ∧ rolledBack.Serves Config.rolledBack ∧
    ∃ (p : Plan (Option Change)) (run : Run (Option Change) (Recorded Simulator))
      (report : PlanReport), rolledBack.buildPlan "one" none = .ok p ∧
      Plan.Ends { p with poll := .fixed 0 } Provider.simulated.recorded .sequential
        ⟨({} : Simulator).after Simulator.rolledBack, []⟩ run report ∧
      report.outcome = .success ∧
      run.world.inner.stateOf? "n-a" = some .updateRollbackComplete := by
  have hvalid : Config.rolledBack.validate = .ok () := by cbv
  obtain ⟨p, run, report, hplan, -, hends, hsuccess, hstate, -⟩ := exists_run_rolledBack
  exact ⟨hvalid, serves_rolledBack, p, run, report, hplan, hends, hsuccess, hstate⟩

/-- The other stack of that plan is complete, with the hash of the only template that was submitted
for it. -/
theorem build_deploys_rolledBack :
    ∃ (run : Run (Option Change) (Recorded Simulator)) (template : RenderedTemplate)
      (record : Simulator.Record),
      run.world.submissions "n-b" = [⟨"n-b", template, .empty⟩] ∧
      run.world.inner.records.get? "n-b" = some record ∧
      record.stack.templateHash = some template.hash ∧ record.stack.state.isComplete = true := by
  obtain ⟨p, run, report, hplan, hkey, hends, hsuccess, -, hstatus⟩ := exists_run_rolledBack
  have hasked : ∀ stack, Simulator.Event.insert stack ∉ Simulator.rolledBack := by
    simp [Simulator.rolledBack]
  obtain ⟨template, record, honce, -, hrecord, hhash, hstate⟩ := build_deploys serves_rolledBack
    hplan (.fixed 0) p.sink Simulator.rolledBack hasked hends hsuccess
    (List.mem_cons_of_mem _ List.mem_cons_self) hkey rfl rfl
  refine ⟨run, template, record, honce, hrecord, hhash, ?_⟩
  rw [Simulator.isComplete_iff]
  rcases hstate with h | h | ⟨hskipped, -⟩
  · exact .inl h
  · exact .inr h
  · have hskipped : run.status? "n-b" = some (.skipped (some "nochange")) := hskipped
    rw [hstatus] at hskipped
    cases hskipped

end Workspace

end Rollout

import Rollout.Proofs.Plan.Recording
import Rollout.Proofs.Workspace.BuildCourse
import Rollout.Proofs.Workspace.Schedule

/-!
# Builds that are broken off

Whenever a build from nothing was called off or broken off, building again makes up for it: in the
end the provider is as it would be if the build had been left alone.

* `Workspace.onCourse_of_reaches`: no build leaves the course, however far it comes.
* `Workspace.ready_of_success`: a successful build has every stack ready.
* `Workspace.build_resumed`: a build after a build that was broken off.
* `Config.chained` and `Workspace.build_resumed_chained`: a build that was called off while a stack
  was being created.
-/

namespace Rollout

open Simulator

namespace Workspace

variable {c : Config} {w : Workspace} {id id' id'' : String} {targets : Option (List String)}
  {p p' p'' : Plan (Option Change)} {poll poll' poll'' : PollPolicy} {sink sink' sink'' : Sink}
  {walker walker' walker'' : Walker} {origin world : Simulator}
  {run : Run (Option Change) Simulator} {report : PlanReport}

/-! ## Builds on course -/

section

variable (hvalid : c.validate = .ok ()) (hreads : c.ReadsOthers) (hw : w.Serves c)
  (hopen : ∀ s ∈ w.members, s.isUpdateBlocked = false) (planned : w.buildPlan id targets = .ok p)
include hvalid hreads hw hopen planned

/-- What the steps of a build keep to, whatever it waits for and whoever listens. -/
def courseContract (poll : PollPolicy) (sink : Sink) (origin : Simulator) :
    Contract { p with poll, sink } Provider.simulated.recorded :=
  have hgraph : p.graph.Sound := sound_plan planned
  have hfor : p.IsFor w (Build.action w) none := isFor_plan planned
  Build.courseContract { p with poll, sink } hgraph hfor hw.lookups (nodup_fqns planned) hopen
    (fun _ hs hnode _ hfqn => hw.path_of_reads hvalid hreads planned hs hnode hfqn) origin

variable (hcourse : OnCourse (Build.Goal w p.graph.dag.nodes origin) origin world)
include hcourse

/-- Wherever a build has come, the provider is on course. -/
theorem onCourse_of_reaches
    (reached : Plan.Reaches { p with poll, sink } .simulated walker world run) :
    OnCourse (Build.Goal w p.graph.dag.nodes origin) origin run.world := by
  obtain ⟨exchanges, hnoted⟩ := reached.recorded
  have hgraph : p.graph.Sound := sound_plan planned
  exact Plan.Reaches.holds_of_asks (p := { p with poll, sink }) hgraph
    (courseContract hvalid hreads hw hopen planned poll sink origin) hnoted (fun _ _ => hcourse)
    (P := fun world => OnCourse (Build.Goal w p.graph.dag.nodes origin) origin world.inner)
    (fun hasks hworld => hworld.respond (Build.Goal.unique (nodup_fqns planned)) hasks.2) hcourse

/-- Its end changes nothing about that. -/
theorem onCourse_of_ends
    (ended : Plan.Ends { p with poll, sink } .simulated walker world run report) :
    OnCourse (Build.Goal w p.graph.dag.nodes origin) origin run.world := by
  obtain ⟨last, reached, hlast⟩ := ended.exists_reaches
  rw [hlast]
  exact onCourse_of_reaches hvalid hreads hw hopen planned hcourse reached

/-- After a successful build all stacks of the plan are ready. -/
theorem ready_of_success
    (ended : Plan.Ends { p with poll, sink } .simulated walker world run report)
    (success : report.outcome = .success) {s : Stack} (hs : s ∈ w.members)
    (hnode : s.fqn ∈ p.graph.dag.nodes) :
    Build.Ready w p.graph.dag.nodes origin s run.world := by
  obtain ⟨exchanges, hnoted⟩ := ended.recorded
  have hgraph : p.graph.Sound := sound_plan planned
  obtain ⟨_, status, -, hok, t, ht, hfqn, -, hstands⟩ :=
    Plan.Ends.keeps_of_success (p := { p with poll, sink }) hgraph
      (courseContract hvalid hreads hw hopen planned poll sink origin) hnoted
      (fun _ _ => hcourse) success hnode
  obtain rfl := List.inj_on_of_nodup_map (nodup_fqns planned) ht hs hfqn
  exact hstands.ready hok

/-- A build that nobody calls off is a success, if every stack has a template. -/
theorem success_of_goal
    (hgoal : ∀ s ∈ w.members, s.fqn ∈ p.graph.dag.nodes → s.enabled = true →
      ∃ hash, Build.Goal w p.graph.dag.nodes origin s.fqn hash)
    (quiet : ∀ journal, sink.breaksAt journal = false)
    (ended : Plan.Ends { p with poll, sink } .simulated walker world run report)
    (uncancelled : run.cancelled = false) : report.outcome = .success := by
  obtain ⟨exchanges, hnoted⟩ := ended.recorded
  have hgraph : p.graph.Sound := sound_plan planned
  refine Plan.Ends.success_of_contract (p := { p with poll, sink }) hgraph
    (courseContract hvalid hreads hw hopen planned poll sink origin) hnoted (fun _ _ => hcourse)
    ?_ quiet uncancelled
  rintro name change status world ⟨s, hs, rfl, hnode, hstands⟩ hdone
  rcases hstands.ended hdone with ⟨hok, -⟩ | ⟨-, henabled, hnone⟩
  · exact hok
  · obtain ⟨hash, hhash⟩ := hgoal s hs hnode henabled
    exact absurd hhash (hnone hash)

end

/-! ## Beginning again -/

/-- Let the variables of a sound configuration read outputs of other configured stacks only, and let
no stack be locked. Let a build of its stacks from nothing be a success, at a provider where no
operation will end badly. Then the same build can be broken off at any moment, whether it was called
off or not: as soon as it has been built again without that, it is a success, too, and leaves the
same stacks, none of which has anything left to report. So it is for all targets, environments and
forced stacks, whatever outputs are to come, however long operations take, and whatever the
schedules. -/
theorem build_resumed (hvalid : c.validate = .ok ()) (hreads : c.ReadsOthers) (hw : w.Serves c)
    (unlocked : ∀ s ∈ w.members, s.isUpdateBlocked = false)
    (planned : w.buildPlan id targets = .ok p) (planned' : w.buildPlan id' targets = .ok p')
    (planned'' : w.buildPlan id'' targets = .ok p'') (empty : origin.records = .empty)
    (unmarked : origin.failures = [])
    (ended : Plan.Ends { p with poll, sink } .simulated walker origin run report)
    (success : report.outcome = .success) {stopped : Run (Option Change) Simulator}
    (reached : Plan.Reaches { p' with poll := poll', sink := sink' } .simulated walker' origin
      stopped)
    (quiet : ∀ journal, sink''.breaksAt journal = false)
    {resumed : Run (Option Change) Simulator} {report'' : PlanReport}
    (ended'' : Plan.Ends { p'' with poll := poll'', sink := sink'' } .simulated walker''
      stopped.world resumed report'')
    (uncancelled : resumed.cancelled = false) :
    report''.outcome = .success ∧ resumed.world.records = run.world.records ∧
      ∀ fqn r, resumed.world.records.get? fqn = some r → r.transitions = [] := by
  have hnothing : OnCourse (Build.Goal w p.graph.dag.nodes origin) origin origin :=
    ⟨⟨rfl, unmarked⟩, fun fqn r hr => by rw [empty] at hr; cases hr⟩
  have hwhole := onCourse_of_ends hvalid hreads hw unlocked planned hnothing ended
  have hready : ∀ s ∈ w.members, s.fqn ∈ p.graph.dag.nodes →
      Build.Ready w p.graph.dag.nodes origin s run.world := fun _ hs hnode =>
    ready_of_success hvalid hreads hw unlocked planned hnothing ended success hs hnode
  -- What is broken off stays on course, so it is from there that the stacks are built again.
  have hgraph' : p'.graph = p.graph := graph_plan planned planned'
  have hgraph'' : p''.graph = p.graph := graph_plan planned planned''
  rw [← hgraph'] at hnothing
  have hstopped := onCourse_of_reaches hvalid hreads hw unlocked planned' hnothing reached
  rw [hgraph', ← hgraph''] at hstopped
  have hsuccess := success_of_goal hvalid hreads hw unlocked planned'' hstopped
    (fun s hs hnode henabled => by
      rw [hgraph''] at hnode ⊢
      obtain ⟨hash, hgoal, -⟩ := hready s hs hnode henabled
      exact ⟨hash, hgoal⟩) quiet ended'' uncancelled
  have hresumed := onCourse_of_ends hvalid hreads hw unlocked planned'' hstopped ended''
  have hready'' : ∀ s ∈ w.members, s.fqn ∈ p''.graph.dag.nodes →
      Build.Ready w p''.graph.dag.nodes origin s resumed.world := fun _ hs hnode =>
    ready_of_success hvalid hreads hw unlocked planned'' hstopped ended'' hsuccess hs hnode
  rw [hgraph''] at hresumed hready''
  refine ⟨hsuccess, Build.records_eq_of_ready (nodup_fqns planned) hwhole hresumed hready hready'',
    fun fqn r hr => ?_⟩
  obtain ⟨_, ⟨s, hs, rfl, hnode, henabled, -⟩, -⟩ := hresumed.rising fqn r hr
  obtain ⟨_, -, hcreated⟩ := hready'' s hs hnode henabled
  obtain rfl := Option.some.inj (hr.symm.trans hcreated)
  rfl

end Workspace

/-! ## A build that was called off -/

/-- A stack, and one that reads an output of it. -/
def Config.chained : Config where
  scope := "n"
  execution := {}
  definitions :=
    [{ name := "a", templateBody := some "t" },
      { name := "b", vars := .ofList [("u", "$\x7boutput a::U\x7d")],
        templateBody := some "\x7b\x7bu\x7d\x7d" }]

/-- Nothing is there. The first stack will have an output, and operations take two calls. -/
def Simulator.chained : Simulator where
  outputs := .ofList [("n-a", .ofList [("U", "v")])]
  ticks := 2

theorem Config.readsOthers_chained : Config.chained.ReadsOthers := by
  have hfound : outputStacks "$\x7boutput a::U\x7d" = .ok ["a"] := by cbv
  intro d hd value hvalue stack hreads
  simp only [Config.chained, List.mem_cons, List.not_mem_nil, or_false] at hd
  rcases hd with rfl | rfl
  · cases hvalue
  · obtain rfl : value = "$\x7boutput a::U\x7d" := List.mem_singleton.1 hvalue
    obtain rfl := List.mem_singleton.1 (mem_outputStacks_of_reads hfound hreads)
    exact ⟨by decide, _, List.mem_cons_self, rfl⟩

namespace Workspace

/-- The workspace of that configuration. -/
def chained : Workspace where
  scope := "n"
  delimiter := "-"
  execution := {}
  members :=
    [⟨"a", "n-a", "inline", some "t", [], .empty, .empty, true, false, false⟩,
      ⟨"b", "n-b", "inline", some "\x7b\x7bu\x7d\x7d", ["a"],
        .ofList [("u", "$\x7boutput a::U\x7d")], .empty, true, false, false⟩]

theorem serves_chained : chained.Serves Config.chained := by
  have hof : ofConfig Config.chained = .ok chained := by cbv
  exact ⟨chained, {}, [], hof, rfl⟩

/-- Both stacks are created. Another build is called off when it has submitted the second one, and
the build after that finds it in progress. -/
theorem plays_chained :
    (StepGraph.ofSteps (chained.members.map
      (chained.stepOf (Build.action chained) none))).toOption.any (fun graph =>
        (Plan.playsAtOnce
          { id := "one", description := "Create/Update stacks", graph, poll := .fixed 0 }
          .simulated .sequential .chained (visit "n-a" 17 ++ visit "n-b" 18)).any fun whole =>
            (whole.isOver && whole.workers.isEmpty) &&
            whole.finish.2.any (·.outcome == .success) &&
            (Plan.playsAtOnce
              { id := "two", description := "Create/Update stacks", graph, poll := .fixed 0 }
              .simulated .unbounded .chained
              (visit "n-a" 17 ++ List.replicate 7 (.work "n-b") ++ [.cancel, .work "n-b"])).any
              fun stopped => stopped.status? "n-b" == some (.cancelled (some "interrupted")) &&
                stopped.world.stateOf? "n-b" == some .createInProgress &&
                (Plan.playsAtOnce
                  { id := "three", description := "Create/Update stacks", graph, poll := .fixed 0 }
                  .simulated .unbounded stopped.world (visit "n-a" 7 ++ visit "n-b" 13)).any
                    fun resumed => (resumed.isOver && resumed.workers.isEmpty) &&
                      resumed.finish.2.isSome && !resumed.finish.1.cancelled) = true := by
  decide +kernel

/-- A build that was called off while its second stack was being created is resumed: in the end both
stacks are as they would be without that. -/
theorem build_resumed_chained :
    ∃ (p p' p'' : Plan (Option Change)) (run stopped resumed : Run (Option Change) Simulator)
      (report report'' : PlanReport),
      chained.buildPlan "one" none = .ok p ∧ chained.buildPlan "two" none = .ok p' ∧
      chained.buildPlan "three" none = .ok p'' ∧
      Plan.Ends { p with poll := .fixed 0 } .simulated .sequential .chained run report ∧
      Plan.Reaches { p' with poll := .fixed 0 } .simulated .unbounded .chained stopped ∧
      stopped.status? "n-b" = some (.cancelled (some "interrupted")) ∧
      stopped.world.stateOf? "n-b" = some .createInProgress ∧
      Plan.Ends { p'' with poll := .fixed 0 } .simulated .unbounded stopped.world resumed
        report'' ∧
      report''.outcome = .success ∧ resumed.world.records = run.world.records := by
  have hvalid : Config.chained.validate = .ok () := by cbv
  obtain ⟨graph, hgraph, h⟩ := (Option.any_eq_true _ _).1 plays_chained
  obtain ⟨whole, hwhole, h⟩ := (Option.any_eq_true _ _).1 h
  rw [Bool.and_eq_true, Bool.and_eq_true] at h
  obtain ⟨⟨hdone, hreport⟩, h⟩ := h
  obtain ⟨report, hreport, hsuccess⟩ := (Option.any_eq_true _ _).1 hreport
  obtain ⟨stopped, hstopped, h⟩ := (Option.any_eq_true _ _).1 h
  rw [Bool.and_eq_true, Bool.and_eq_true, beq_iff_eq, beq_iff_eq] at h
  obtain ⟨⟨hinterrupted, hstate⟩, h⟩ := h
  obtain ⟨last, hlast, h⟩ := (Option.any_eq_true _ _).1 h
  rw [Bool.and_eq_true, Bool.and_eq_true, Bool.not_eq_true'] at h
  obtain ⟨⟨hdone'', hreport''⟩, huncancelled⟩ := h
  obtain ⟨report'', hreport''⟩ := Option.isSome_iff_exists.1 hreport''
  rw [Plan.playsAtOnce_eq] at hwhole hstopped hlast
  have hplan := buildPlan_eq_ok (Except.toOption_eq_some_iff.1 hgraph)
  have hends := Plan.ends_of_plays hwhole hdone hreport
  have hreached := Plan.reaches_of_plays hstopped
  have hends'' := Plan.ends_of_plays hlast hdone'' hreport''
  have hunlocked : ∀ s ∈ chained.members, s.isUpdateBlocked = false := by
    simp [chained, Stack.isUpdateBlocked]
  obtain ⟨hsuccess'', hrecords, -⟩ := build_resumed hvalid Config.readsOthers_chained
    serves_chained hunlocked (hplan "one") (hplan "two") (hplan "three") rfl rfl hends
    (eq_of_beq hsuccess) hreached (fun _ => rfl) hends'' huncancelled
  exact ⟨_, _, _, _, stopped, _, report, report'', hplan "one", hplan "two", hplan "three", hends,
    hreached, hinterrupted, hstate, hends'', hsuccess'', hrecords⟩

end Workspace

end Rollout

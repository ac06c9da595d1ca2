import Rollout.Proofs.Plan.Schedule
import Rollout.Proofs.Workspace.Footprint

/-!
# Builds and destructions end in one way

What comes of building or destroying the stacks of a sound configuration cannot depend on the
schedule: two runs from the same state of the provider leave every step, the outcome and the
provider in the same state, whatever they waited for and whoever went first.

* `Workspace.ends_one_way`: so it is for all configurations, environments, targets and states.
* `Config.crossed` and `Workspace.ends_one_way_crossed`: two schedules of one build.
-/

namespace Rollout

namespace Workspace

/-- Let the variables of a sound configuration read outputs of configured stacks only. Then the
plans that build its stacks end in one way, and so do the plans that destroy them, from any state of
the provider, with any targets, and in any environment. -/
theorem ends_one_way {c : Config} {w : Workspace} (hvalid : c.validate = .ok ())
    (hreads : c.ReadsConfigured) (hw : ofConfig c = .ok w) (environment : Environment)
    (forced : List String) (targets : Option (List String)) (origin : Simulator) :
    Plan.EndsOneWay (fun id => (withForce { w with environment } forced).buildPlan id targets)
        origin ∧
      Plan.EndsOneWay (fun id => (withForce { w with environment } forced).destroyPlan id targets)
        origin := by
  have hwired : (withForce { w with environment } forced).Wired :=
    ((wired_ofConfig hvalid hreads hw).withEnvironment environment).withForce forced
  exact ⟨Plan.endsOneWay_of graph_plan sound_plan (keepsApart_buildPlan hwired) origin,
    Plan.endsOneWay_of graph_plan sound_plan keepsApart_destroyPlan origin⟩

end Workspace

/-! ## Two schedules of one build -/

/-- Two locked stacks, and one between them that reads an output of the first and is disabled. -/
def Config.crossed : Config where
  scope := "n"
  execution := {}
  definitions :=
    [{ name := "a", locked := true },
      { name := "b", vars := .ofList [("u", "$\x7boutput a::U\x7d")], enabled := false },
      { name := "c", locked := true }]

/-- The locked stacks are there, and an update of the first is not over yet. -/
def Simulator.crossed : Simulator where
  records := .ofList
    [("n-a", ⟨⟨"n-a", .updateInProgress, none, .empty⟩, [.updateComplete]⟩),
      ("n-c", ⟨⟨"n-c", .createComplete, none, .empty⟩, []⟩)]
  ticks_pos := Nat.one_pos

namespace Workspace

/-- The workspace of that configuration. -/
def crossed : Workspace where
  scope := "n"
  delimiter := "-"
  execution := {}
  members :=
    [⟨"a", "n-a", "inline", none, [], .empty, .empty, true, true, false⟩,
      ⟨"b", "n-b", "inline", none, ["a"], .ofList [("u", "$\x7boutput a::U\x7d")], .empty, false,
        false, false⟩,
      ⟨"c", "n-c", "inline", none, [], .empty, .empty, true, true, false⟩]

theorem ofConfig_crossed : ofConfig Config.crossed = .ok crossed := by
  cbv

theorem readsConfigured_crossed : Config.crossed.ReadsConfigured := by
  have htokens : tokenize "$\x7boutput a::U\x7d" = .ok [.lookup "output" "a::U"] := by cbv
  have hsplit : splitOutput "a::U" = .ok ("a", "U") := by cbv
  have hvalue : ∀ d ∈ Config.crossed.definitions, ∀ value ∈ d.vars.values,
      value = "$\x7boutput a::U\x7d" := by
    intro d hd value hvalue
    simp only [Config.crossed, List.mem_cons, List.not_mem_nil, or_false] at hd
    rcases hd with rfl | rfl | rfl
    · cases hvalue
    · exact List.mem_singleton.1 hvalue
    · cases hvalue
  rintro d hd value hmem stack ⟨tokens, argument, key, htext, hlookup, hread⟩
  rw [hvalue d hd value hmem, htokens] at htext
  cases htext
  cases List.mem_singleton.1 hlookup
  rw [hsplit] at hread
  cases hread
  exact ⟨_, List.mem_cons_self, rfl⟩

/-- The plan that builds those stacks, once its graph is known. -/
theorem buildPlan_crossed {graph : StepGraph (Option Change)}
    (h : StepGraph.ofSteps (crossed.members.map (crossed.stepOf (Build.action crossed) none)) =
      .ok graph) (id : String) :
    crossed.buildPlan id none = .ok
      { id, description := "Create/Update stacks", graph,
        poll := crossed.execution.pollPolicy } :=
  buildPlan_eq_ok h id

/-- Some turns of the worker of a step, and its end. -/
def visit (name : String) (turns : Nat) : List Move :=
  List.replicate turns (.work name) ++ [.settle name]

/-- The stacks one after the other. -/
def inOrder : List Move := visit "n-a" 6 ++ visit "n-b" 5 ++ visit "n-c" 6

/-- The last stack first. -/
def lastFirst : List Move := visit "n-c" 6 ++ visit "n-a" 6 ++ visit "n-b" 5

/-- A run is at its very end with a report, and nobody called it off. -/
def isReported (last : Run (Option Change) Simulator) : Bool :=
  last.isOver && last.workers.isEmpty && !last.finish.1.cancelled && last.finish.2.isSome

/-- Both schedules come to an end, with the calls in another order. -/
theorem plays_crossed (poll poll' : PollPolicy) :
    (StepGraph.ofSteps (crossed.members.map
      (crossed.stepOf (Build.action crossed) none))).toOption.any (fun graph =>
        (Plan.plays { id := "one", description := "Create/Update stacks", graph, poll }
          .simulated .sequential .crossed inOrder).any fun last =>
          (Plan.plays { id := "two", description := "Create/Update stacks", graph, poll := poll' }
            .simulated .unbounded .crossed lastFirst).any fun last' =>
            isReported last && isReported last' &&
              decide (last.finish.1.world.calls ≠ last'.finish.1.world.calls)) = true := by
  cbv

theorem ends_of_isReported {p : Plan (Option Change)} {walker : Walker} {origin : Simulator}
    {moves : List Move} {last : Run (Option Change) Simulator}
    (h : p.plays .simulated walker origin moves = some last) (hreported : isReported last = true) :
    ∃ report, p.Ends .simulated walker origin last.finish.1 report ∧
      last.finish.1.cancelled = false := by
  simp only [isReported, Bool.and_eq_true, Bool.not_eq_true'] at hreported
  obtain ⟨⟨⟨hover, hworkers⟩, hcancelled⟩, hreport⟩ := hreported
  obtain ⟨report, hreport⟩ := Option.isSome_iff_exists.1 hreport
  exact ⟨report, ⟨last, Plan.reaches_of_plays h, ⟨hover, hworkers⟩, Prod.ext rfl hreport⟩,
    hcancelled⟩

/-- Two builds of those stacks under different schedules, which make their calls in different
orders, end in the same way. -/
theorem ends_one_way_crossed :
    Config.crossed.validate = .ok () ∧ Config.crossed.ReadsConfigured ∧
    ofConfig Config.crossed = .ok crossed ∧
    ∃ (p p' : Plan (Option Change)) (run run' : Run (Option Change) Simulator)
      (report report' : PlanReport),
      crossed.buildPlan "one" none = .ok p ∧ crossed.buildPlan "two" none = .ok p' ∧
      Plan.Ends { p with poll := .standard } .simulated .sequential .crossed run report ∧
      Plan.Ends { p' with poll := .fixed 1000000 } .simulated .unbounded .crossed run' report' ∧
      run.world.calls ≠ run'.world.calls ∧ Run.SameEnd run run' report report' := by
  have hvalid : Config.crossed.validate = .ok () := by cbv
  obtain ⟨graph, hgraph, h⟩ :=
    (Option.any_eq_true _ _).1 (plays_crossed .standard (.fixed 1000000))
  obtain ⟨last, hlast, h⟩ := (Option.any_eq_true _ _).1 h
  obtain ⟨last', hlast', h⟩ := (Option.any_eq_true _ _).1 h
  rw [Bool.and_eq_true, Bool.and_eq_true, decide_eq_true_eq] at h
  obtain ⟨⟨hreported, hreported'⟩, hcalls⟩ := h
  have hsteps := buildPlan_crossed (Except.toOption_eq_some_iff.1 hgraph)
  obtain ⟨report, hends, hcancelled⟩ := ends_of_isReported hlast hreported
  obtain ⟨report', hends', hcancelled'⟩ := ends_of_isReported hlast' hreported'
  obtain ⟨hbuild, -⟩ :=
    ends_one_way hvalid readsConfigured_crossed ofConfig_crossed {} [] none .crossed
  exact ⟨hvalid, readsConfigured_crossed, ofConfig_crossed, _, _, _, _, report, report',
    hsteps "one", hsteps "two", hends, hends', hcalls,
    hbuild "one" "two" _ _ (hsteps "one") (hsteps "two") .standard (.fixed 1000000) .sound .sound
      (fun _ => rfl) (fun _ => rfl) .sequential .unbounded _ _ report report' hends hends'
      hcancelled hcancelled'⟩

end Workspace

end Rollout

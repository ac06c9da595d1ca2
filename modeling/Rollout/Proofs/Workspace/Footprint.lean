import Rollout.Proofs.Plan.Apart
import Rollout.Proofs.Plan.Build
import Rollout.Proofs.Workspace.Wiring
import Rollout.Workspace.Build
import Rollout.Workspace.Destroy

/-!
# What the stacks of a workspace have to do with each other

A step that destroys a stack asks about this stack only. A step that builds one also reads outputs
of the stacks that this one requires, and these are the steps that it depends on.

* `Destroy.keepsTo_action` and `Build.keepsTo_action`: what a call asks about.
* `Plan.IsFor` and `Workspace.isFor_plan`: the steps of a plan are those of the stacks.
* `Workspace.Needs` and `Workspace.path_plan_iff`: what the steps of the stacks need, and what the
  steps of a plan depend on.
* `Workspace.keepsApart_destroyPlan`, `Workspace.keepsApart_buildPlan`: the steps keep apart.
* `Workspace.graph_plan`: the graph of a plan is a matter of the stacks and the targets.
-/

namespace Rollout

open Job

/-! ## Calls -/

/-- A call ends with what has come of an attempt. -/
theorem Destroy.keepsTo_action (s : Stack) (submitted : Bool) (status : Status)
    (mayRead : String → Prop) :
    ((action s).advance submitted status).KeepsTo s.fqn mayRead := by
  have hsubmit : ∀ described, (submit s status described).run.KeepsTo s.fqn mayRead := by
    intro described
    cases described with
    | none => exact keepsTo_done _
    | some d =>
      rw [submit]
      split
      · exact keepsTo_done _
      · split
        · exact keepsTo_done _
        · split
          · exact keepsTo_done _
          · exact keepsTo_bind_run (keepsTo_request (.inl rfl)) fun _ => keepsTo_done _
  have hattempt : (attempt s submitted status).run.KeepsTo s.fqn mayRead := by
    rw [attempt]
    split
    · exact keepsTo_done _
    · refine keepsTo_bind_run (keepsTo_request (.inl rfl)) fun described => ?_
      split
      · exact keepsTo_done _
      · exact hsubmit described
  refine keepsTo_bind hattempt fun ended => ?_
  split
  · exact keepsTo_done _
  · exact keepsTo_done _

namespace Build

variable {w : Workspace} {s : Stack}

/-- The stacks that a stack requires, under their names at the provider. -/
def Requires (w : Workspace) (s : Stack) (fqn : String) : Prop := fqn ∈ s.requires.map w.fqnFor

/-- The template of a stack is rendered by asking for outputs of its own and of the stacks that it
requires. -/
theorem keepsTo_resolve (hw : w.Wired) (hs : s ∈ w.members) :
    (w.resolve s).run.KeepsTo s.fqn (Requires w s) := by
  rw [Workspace.resolve, Stack.resolve, hw.lookups]
  refine keepsTo_bind_run (LookupRegistry.keepsTo_resolveAll ?_) fun vars => keepsTo_done _
  intro value hvalue stack hreads
  obtain ⟨t, ht, rfl, hown | hrequired⟩ := hw.reads s hs value hvalue stack hreads
  · rw [hown, hw.lookupContext_fqnFor hs]
    exact .inl rfl
  · rw [hw.lookupContext_fqnFor ht, ← hw.fqnFor ht]
    exact .inr ⟨_, List.mem_map.2 ⟨t.name, hrequired, rfl⟩, rfl⟩

theorem keepsTo_submit (hw : w.Wired) (hs : s ∈ w.members) (status : Status)
    (described : Option Deployment) :
    (submit w s status described).run.KeepsTo s.fqn (Requires w s) := by
  have hresolve := keepsTo_resolve hw hs
  cases described with
  | none =>
    refine keepsTo_bind_run hresolve fun template => ?_
    exact keepsTo_bind_run (keepsTo_request (.inl rfl)) fun _ => keepsTo_done _
  | some existing =>
    rw [submit]
    split
    · exact keepsTo_done _
    · split
      · exact keepsTo_done _
      · split
        · exact keepsTo_done _
        · refine keepsTo_bind_run hresolve fun template => ?_
          refine keepsTo_bind_run (keepsTo_request (.inl rfl)) fun outcome => ?_
          split
          · exact keepsTo_done _
          · exact keepsTo_done _

theorem keepsTo_action (hw : w.Wired) (hs : s ∈ w.members) (change : Option Change)
    (status : Status) : ((action w s).advance change status).KeepsTo s.fqn (Requires w s) := by
  have hattempt : (attempt w s change status).run.KeepsTo s.fqn (Requires w s) := by
    rw [attempt]
    split
    · exact keepsTo_done _
    · refine keepsTo_bind_run (keepsTo_request (.inl rfl)) fun described => ?_
      split
      · exact keepsTo_done _
      · exact keepsTo_submit hw hs status described
  refine keepsTo_bind hattempt fun ended => ?_
  split
  · exact keepsTo_done _
  · exact keepsTo_done _

end Build

/-! ## Plans -/

/-- The steps of the plan are those of stacks of a workspace, under the names of the stacks at the
provider. -/
def Plan.IsFor {μ : Type} (p : Plan μ) (w : Workspace) (action : Stack → Action μ) (memo : μ) :
    Prop :=
  ∀ name step, p.graph.get? name = some step →
    ∃ s ∈ w.members, s.fqn = name ∧ step = w.stepOf action memo s

/-- A worker in a run of such a plan is there for a stack. -/
theorem Plan.IsFor.exists_of_worker {μ σ : Type} {p : Plan μ} {w : Workspace}
    {action : Stack → Action μ} {memo : μ} (h : p.IsFor w action memo) {run : Run μ σ}
    (hr : run.Sound p) {name : String} {worker : Worker μ}
    (hworker : run.workers.get? name = some worker) :
    ∃ s ∈ w.members, s.fqn = name ∧ name ∈ p.graph.dag.nodes := by
  obtain ⟨step, hstep, -⟩ := hr.exists_step hworker
  obtain ⟨first, hfirst, -⟩ := hr.action name step hstep
  obtain ⟨s, hs, hfqn, -⟩ := h name first hfirst
  refine ⟨s, hs, hfqn, ?_⟩
  rw [← hr.dag, hr.graph.mem_nodes_iff]
  exact ⟨step, hstep⟩

namespace Workspace

variable {μ : Type} {w : Workspace} {id description : String} {targets : Option (List String)}
  {reverse : Bool} {action : Stack → Action μ} {memo : μ} {p : Plan μ}

theorem plan_eq_ok (h : w.plan id description targets reverse action memo = .ok p) :
    ∃ q, Plan.build id description (w.members.map (w.stepOf action memo)) targets reverse = .ok q ∧
      p.graph = q.graph := by
  obtain ⟨q, hq, h⟩ := Except.bind_eq_ok_iff.1 h
  cases h
  exact ⟨q, hq, rfl⟩

/-- The identity of a plan plays no role for its graph. -/
theorem graph_plan {id' : String} {p' : Plan μ}
    (h : w.plan id description targets reverse action memo = .ok p)
    (h' : w.plan id' description targets reverse action memo = .ok p') : p'.graph = p.graph := by
  obtain ⟨q, hq, hgraph⟩ := plan_eq_ok h
  obtain ⟨q', hq', hgraph'⟩ := plan_eq_ok h'
  rw [hgraph, hgraph', Plan.graph_build hq hq']

theorem sound_plan (h : w.plan id description targets reverse action memo = .ok p) :
    p.graph.Sound := by
  obtain ⟨q, hq, hgraph⟩ := plan_eq_ok h
  exact hgraph ▸ Plan.sound_build hq

/-- A step of the plan is that of a stack, under the name of the stack at the provider. -/
theorem exists_member_of_get? (h : w.plan id description targets reverse action memo = .ok p)
    {n : String} {step : Step μ} (hs : p.graph.get? n = some step) :
    ∃ s ∈ w.members, s.fqn = n ∧ step = w.stepOf action memo s := by
  obtain ⟨q, hq, hgraph⟩ := plan_eq_ok h
  rw [hgraph] at hs
  obtain ⟨s, hmem, rfl⟩ := List.mem_map.1 (Plan.mem_of_get? hq hs)
  exact ⟨s, hmem, (Plan.sound_build hq).named n _ hs, rfl⟩

theorem isFor_plan (h : w.plan id description targets reverse action memo = .ok p) :
    p.IsFor w action memo := fun _ _ hs => exists_member_of_get? h hs

/-- The stacks of a workspace that has a plan have names of their own at the provider. -/
theorem nodup_fqns (h : w.plan id description targets reverse action memo = .ok p) :
    (w.members.map (·.fqn)).Nodup := by
  obtain ⟨q, hq, -⟩ := plan_eq_ok h
  obtain ⟨g, hg, -⟩ := Plan.build_eq_ok hq
  have hnames := StepGraph.nodup_of_ofSteps hg
  rwa [List.map_map] at hnames

/-- The step of one name at the provider needs that of another: its stack requires a stack that the
plan takes for the other one. -/
def Needs (w : Workspace) (a b : String) : Prop :=
  ∃ s ∈ w.members, s.fqn = a ∧ ∃ name ∈ s.requires, w.fqnFor name = b

theorem requires_steps (w : Workspace) (action : Stack → Action μ) (memo : μ) :
    StepGraph.Requires (w.members.map (w.stepOf action memo)) = w.Needs := by
  funext a b
  unfold StepGraph.Requires Needs stepOf
  simp

/-- A step of a plan depends on the steps that it needs, directly or not, or, in reverse, on those
that need it. -/
theorem path_plan_iff (h : w.plan id description targets reverse action memo = .ok p) {a : String}
    (ha : a ∈ p.graph.dag.nodes) (b : String) :
    p.graph.dag.Path a b ↔
      if reverse then Relation.TransGen w.Needs b a else Relation.TransGen w.Needs a b := by
  obtain ⟨q, hq, hgraph⟩ := plan_eq_ok h
  rw [hgraph] at ha ⊢
  rw [Plan.path_build_iff hq ha, requires_steps]

/-- The plan that builds all stacks, once its graph is known. -/
theorem buildPlan_eq_ok {graph : StepGraph (Option Change)}
    (h : StepGraph.ofSteps (w.members.map (w.stepOf (Build.action w) none)) = .ok graph)
    (id : String) :
    w.buildPlan id none = .ok
      { id, description := "Create/Update stacks", graph, poll := w.execution.pollPolicy } := by
  rw [buildPlan, plan, Plan.build, h]
  rfl

/-- A plan that destroys stacks keeps its steps apart. -/
theorem keepsApart_destroyPlan {p : Plan Bool} (h : w.destroyPlan id targets = .ok p) :
    p.KeepsApart := by
  intro n step hs memo status
  obtain ⟨s, -, rfl, rfl⟩ := exists_member_of_get? h hs
  exact Destroy.keepsTo_action s memo status _

/-- So does a plan that builds the stacks of a wired workspace. -/
theorem keepsApart_buildPlan (hw : w.Wired) {p : Plan (Option Change)}
    (h : w.buildPlan id targets = .ok p) : p.KeepsApart := by
  intro n step hs memo status
  have hnode := ((sound_plan h).mem_nodes_iff n).2 ⟨step, hs⟩
  obtain ⟨s, hmem, rfl, rfl⟩ := exists_member_of_get? h hs
  exact (Build.keepsTo_action hw hmem memo status).mono fun fqn hfqn =>
    (path_plan_iff h hnode fqn).2 (.single ⟨s, hmem, rfl, List.mem_map.1 hfqn⟩)

end Workspace

end Rollout

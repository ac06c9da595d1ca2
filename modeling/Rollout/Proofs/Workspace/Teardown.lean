import Rollout.Proofs.Provider.Record
import Rollout.Proofs.Provider.Terms
import Rollout.Proofs.Workspace.Requirements
import Rollout.Proofs.Workspace.Schedule

/-!
# Stacks are destroyed after all that require them

A step that destroys a stack ends well only when the stack has no record at the provider any more,
and nobody else touches the record.

* `Destroy.ensures_action` and `Destroy.contract`: what the steps of a plan do on such terms.
* `Workspace.absent_of_needs`: when a stack is to be destroyed, no enabled stack of which the step
  needs its step is there.
* `Workspace.destroy_after_dependents`: so it is with all stacks that require it.
-/

namespace Rollout

open Job

namespace Destroy

/-- The step has not ended well as long as the stack, if it is enabled, has a record. -/
def Gone (s : Stack) (status : Status) (world : Simulator) : Prop :=
  s.enabled = true → status.isOk = true → world.records.get? s.fqn = none

/-- The terms of a step that destroys a stack. -/
def terms (s : Stack) : Terms Provider.simulated := Simulator.terms s.fqn (· = s.fqn)

variable {s : Stack} {status : Status} {world later : Simulator}

theorem gone_of_not_isOk (h : status.isOk = false) : Gone s status world := fun _ hok => by
  rw [h] at hok
  cases hok

theorem Gone.rely (h : Gone s status world) (hrely : (terms s).rely world later) :
    Gone s status later :=
  fun henabled hok => (hrely s.fqn rfl).trans (h henabled hok)

/-- An attempt that asks nothing more. -/
theorem ensures_pure {submitted : Bool} (h : Gone s status world) :
    (pure (submitted, status) : ExceptT Error Job (Bool × Status)).run.Ensures (terms s)
      (AfterAttempt fun _ => Gone s) world :=
  fun _ hlater => h.rely hlater

/-- A stack that is described is there, and one that is not is gone. -/
theorem ensures_submit (hopen : status.isOk = false) {before : Simulator}
    {described : Option Deployment} (h : Simulator.Described s.fqn before world described) :
    (submit s status described).run.Ensures (terms s) (AfterAttempt fun _ => Gone s) world := by
  cases h with
  | gone _ record => exact ensures_pure fun _ _ => record
  | there _ present _ =>
    rw [submit, present, if_neg Bool.false_ne_true]
    split
    · exact ensures_pure (gone_of_not_isOk rfl)
    · split
      · exact ensures_pure (gone_of_not_isOk hopen)
      · refine ensures_request_bind (.inl rfl) fun later _ => ⟨_, _, rfl, ?_⟩
        split
        · exact ensures_pure (gone_of_not_isOk rfl)
        · exact fun _ _ => trivial

theorem check_of_there {d : Deployment} (h : d.state.isDeleted = false) :
    (check (some d)).isOk = false := by
  rw [check, h, if_neg Bool.false_ne_true]
  split <;> rfl

theorem ensures_attempt (hopen : status.isOk = false) (submitted : Bool) (world : Simulator) :
    (attempt s submitted status).run.Ensures (terms s) (AfterAttempt fun _ => Gone s) world := by
  rw [attempt]
  split
  · next hdisabled => exact ensures_pure fun henabled => by simp [henabled] at hdisabled
  · refine ensures_request_bind (.inl rfl) fun later _ => ?_
    obtain ⟨after, described, hrespond, hdescribed⟩ := Simulator.respond_describe later s.fqn
    refine ⟨after, .ok described, hrespond, ?_⟩
    cases submitted with
    | false => exact ensures_submit hopen hdescribed
    | true =>
      cases hdescribed with
      | gone _ record => exact ensures_pure fun _ _ => record
      | there _ present _ => exact ensures_pure (gone_of_not_isOk (check_of_there present))

/-- When a call ends well, an enabled stack is gone. -/
theorem ensures_action (hopen : status.isOk = false) (submitted : Bool) (world : Simulator) :
    ((action s).advance submitted status).Ensures (terms s)
      (AfterCall (fun _ => Gone s) submitted) world :=
  ensures_call (ensures_attempt hopen submitted world) (fun _ _ => rfl) (fun _ => rfl)
    (fun hrely hgone => hgone.rely hrely) fun _ _ _ => gone_of_not_isOk rfl

/-- What the steps of a plan that destroys stacks keep to. -/
def contract {w : Workspace} (p : Plan Bool) (hp : p.IsFor w action false) :
    Contract p Provider.simulated where
  terms name := Simulator.terms name (· = name)
  before _ _ := True
  between name _ status world := ∃ s ∈ w.members, s.fqn = name ∧
    (∀ step, p.graph.get? name = some step → step.action = action s) ∧ Gone s status world
  between_rely := by
    rintro name memo status world later hrely ⟨s, hs, rfl, hstep, hgone⟩
    exact ⟨s, hs, rfl, hstep, hgone.rely hrely⟩
  before_ask _ _ _ := trivial
  rely_ask world hne _ hasks := Simulator.rely_terms hasks (fun _ h => h.trans_ne hne.symm) world
  begins := by
    intro name step world hstep _ _
    obtain ⟨s, hs, rfl, rfl⟩ := hp name step hstep
    refine ⟨s, hs, rfl, fun step' hstep' => ?_, gone_of_not_isOk rfl⟩
    obtain rfl := Option.some.inj (hstep.symm.trans hstep')
    rfl
  call := by
    rintro name step submitted status world hstep ⟨s, hs, rfl, haction, -⟩ hopen
    rw [haction step hstep]
    refine (ensures_action (Status.not_isOk_of_not_isDone hopen) submitted world).mono ?_
    rintro (message | ⟨submitted, outcome⟩) later h
    · exact ⟨s, hs, rfl, haction, h⟩
    · exact ⟨s, hs, rfl, haction, h⟩

end Destroy

namespace Workspace

/-- Whenever a plan asks to destroy a stack, no enabled stack of which the step needs the step of
this one, directly or not, is there. That includes stacks that read an output of this one by its
name at the provider. -/
theorem absent_of_needs {w : Workspace} {id : String} {targets : Option (List String)}
    {p : Plan Bool} (planned : w.destroyPlan id targets = .ok p) (poll : PollPolicy) (sink : Sink)
    {walker : Walker} {origin : Simulator} {run next : Run Bool Simulator}
    (reached : Plan.Reaches { p with poll, sink } .simulated walker origin run) {move : Move}
    (moved : run.move? .simulated move = some next) {fqn : String}
    (called : next.world.calls = (.destroy, fqn) :: run.world.calls) :
    ∃ s ∈ w.members, s.fqn = fqn ∧ ∀ t ∈ w.members, t.enabled = true →
      Relation.TransGen w.Needs t.fqn s.fqn → run.world.contains t.fqn = false := by
  have hgraph := sound_plan planned
  have hr : run.Sound { p with poll, sink } :=
    Plan.Reaches.sound (p := { p with poll, sink }) hgraph reached
  have hfor : p.IsFor w Destroy.action false := isFor_plan planned
  have hkeeps := Plan.Reaches.keeps (p := { p with poll, sink }) hgraph (Destroy.contract _ hfor)
    reached fun _ _ => trivial
  obtain ⟨worker, hworker⟩ := hkeeps.worker_of_call hr Simulator.calls Simulator.calls_respond
    (fun _ _ hasks => hasks) moved called (by simp)
  obtain ⟨s, hs, rfl, hnode⟩ :=
    Plan.IsFor.exists_of_worker (p := { p with poll, sink }) hfor hr hworker
  refine ⟨s, hs, rfl, fun t ht henabled hneeds => ?_⟩
  have hpath : p.graph.dag.Path s.fqn t.fqn := (path_plan_iff planned hnode t.fqn).2 hneeds
  obtain ⟨_, status, hok, t', ht', hfqn, -, hgone⟩ :=
    hkeeps.of_ended hr (hr.dependency_of_worker hworker hpath)
  obtain rfl := List.inj_on_of_nodup_map (nodup_fqns planned) ht' ht hfqn
  rw [Simulator.contains, Table.contains, hgone henabled hok]
  rfl

/-- Whenever a plan asks to destroy a stack, no enabled stack of the configuration that requires it,
directly or not, is there. So it is for all targets, from any state of the provider, whatever the
schedule, and whether or not the run was called off. -/
theorem destroy_after_dependents {c : Config} {w : Workspace} (hvalid : c.validate = .ok ())
    (hw : w.Serves c) {id : String} {targets : Option (List String)} {p : Plan Bool}
    (planned : w.destroyPlan id targets = .ok p) (poll : PollPolicy) (sink : Sink)
    {walker : Walker} {origin : Simulator} {run next : Run Bool Simulator}
    (reached : Plan.Reaches { p with poll, sink } .simulated walker origin run) {move : Move}
    (moved : run.move? .simulated move = some next) {fqn : String}
    (called : next.world.calls = (.destroy, fqn) :: run.world.calls) :
    ∃ s ∈ w.members, s.fqn = fqn ∧ ∀ t ∈ w.members, t.enabled = true →
      Relation.TransGen c.Requires t.name s.name → run.world.contains t.fqn = false := by
  obtain ⟨s, hs, hfqn, habsent⟩ := absent_of_needs planned poll sink reached moved called
  exact ⟨s, hs, hfqn, fun t ht henabled hrequires =>
    habsent t ht henabled (hw.needs_of_requires hvalid ht hs hrequires)⟩

end Workspace

/-! ## Three stacks in a row -/

/-- The last of three stacks requires the one between, which is disabled and reads an output of the
first. -/
def Config.row : Config where
  scope := "n"
  execution := {}
  definitions :=
    [{ name := "a" },
      { name := "b", vars := .ofList [("u", "$\x7boutput a::U\x7d")], enabled := false },
      { name := "c", requires := ["b"] }]

/-- The first and the last stack are there, and the last one is about to be gone. -/
def Simulator.row : List Simulator.Event :=
  [.insert ⟨"n-a", .createComplete, none, .empty⟩, .insert ⟨"n-c", .createComplete, none, .empty⟩,
    .request (.destroy "n-c")]

theorem Config.requires_row : Relation.TransGen Config.row.Requires "c" "a" := by
  have htokens : tokenize "$\x7boutput a::U\x7d" = .ok [.lookup "output" "a::U"] := by cbv
  have hsplit : splitOutput "a::U" = .ok ("a", "U") := by cbv
  have hreads : ReadsOutput "$\x7boutput a::U\x7d" "a" :=
    ⟨_, "a::U", "U", htokens, List.mem_singleton_self _, hsplit⟩
  refine .tail (.single ⟨_, List.mem_cons_of_mem _ (List.mem_cons_of_mem _ List.mem_cons_self), rfl,
    by decide, .inl List.mem_cons_self⟩) ⟨_, List.mem_cons_of_mem _ List.mem_cons_self, rfl,
    by decide, .inr ⟨_, List.mem_cons_self, hreads⟩⟩

namespace Workspace

/-- The workspace of that configuration. -/
def row : Workspace where
  scope := "n"
  delimiter := "-"
  execution := {}
  members :=
    [⟨"a", "n-a", "inline", none, [], .empty, .empty, true, false, false⟩,
      ⟨"b", "n-b", "inline", none, ["a"], .ofList [("u", "$\x7boutput a::U\x7d")], .empty, false,
        false, false⟩,
      ⟨"c", "n-c", "inline", none, ["b"], .empty, .empty, true, false, false⟩]

theorem serves_row : row.Serves Config.row := by
  have hof : ofConfig Config.row = .ok row := by cbv
  exact ⟨row, {}, [], hof, rfl⟩

/-- The plan that destroys some stacks, once its graph is known. -/
theorem destroyPlan_eq_ok {w : Workspace} {graph narrowed : StepGraph Bool}
    {targets names : List String}
    (hgraph : StepGraph.ofSteps (w.members.map (w.stepOf Destroy.action false)) = .ok graph)
    (hnames : Plan.resolveTargets graph.transpose.toList targets = .ok names)
    (hnarrowed : graph.transpose.restrict names = .ok narrowed) (id : String) :
    w.destroyPlan id (some targets) = .ok
      { id, description := "Destroy stacks", graph := narrowed,
        poll := w.execution.pollPolicy } := by
  rw [destroyPlan, plan, Plan.build, hgraph]
  show (Except.bind (Except.bind (Plan.resolveTargets graph.transpose.toList targets) _) _) = _
  rw [hnames]
  show (Except.bind (Except.bind (graph.transpose.restrict names) _) _) = _
  rw [hnarrowed]
  rfl

/-- The moves after which the first stack is to be destroyed. -/
theorem plays_row (poll : PollPolicy) :
    (StepGraph.ofSteps (row.members.map (row.stepOf Destroy.action false))).toOption.any
      (fun graph => (Plan.resolveTargets graph.transpose.toList ["a"]).toOption.any fun names =>
        (graph.transpose.restrict names).toOption.any fun graph =>
          (Plan.plays { id := "one", description := "Destroy stacks", graph, poll } .simulated
            .sequential (({} : Simulator).after Simulator.row)
            (visit "n-c" 6 ++ visit "n-b" 5 ++ List.replicate 4 (.work "n-a"))).any fun run =>
              (run.move? .simulated (.work "n-a")).any fun next =>
                next.world.calls = (.destroy, "n-a") :: run.world.calls) = true := by
  cbv

/-- When the first stack is to be destroyed, the last one is not there any more. -/
theorem destroy_after_dependents_row :
    (({} : Simulator).after Simulator.row).contains "n-c" = true ∧
    ∃ (p : Plan Bool) (run next : Run Bool Simulator),
      row.destroyPlan "one" (some ["a"]) = .ok p ∧
      Plan.Reaches { p with poll := .standard } .simulated .sequential
        (({} : Simulator).after Simulator.row) run ∧
      next.world.calls = (.destroy, "n-a") :: run.world.calls ∧
      run.world.contains "n-c" = false := by
  have hthere : (({} : Simulator).after Simulator.row).contains "n-c" = true := by decide +kernel
  have hvalid : Config.row.validate = .ok () := by cbv
  obtain ⟨graph, hgraph, h⟩ := (Option.any_eq_true _ _).1 (plays_row .standard)
  obtain ⟨names, hnames, h⟩ := (Option.any_eq_true _ _).1 h
  obtain ⟨narrowed, hnarrowed, h⟩ := (Option.any_eq_true _ _).1 h
  obtain ⟨run, hrun, h⟩ := (Option.any_eq_true _ _).1 h
  obtain ⟨next, hnext, hcalls⟩ := (Option.any_eq_true _ _).1 h
  have hcalls := of_decide_eq_true hcalls
  have hplan := destroyPlan_eq_ok (Except.toOption_eq_some_iff.1 hgraph)
    (Except.toOption_eq_some_iff.1 hnames) (Except.toOption_eq_some_iff.1 hnarrowed) "one"
  have hreaches := Plan.reaches_of_plays hrun
  obtain ⟨s, hs, hfqn, hdependents⟩ := destroy_after_dependents hvalid serves_row hplan .standard
    .sound hreaches hnext hcalls
  obtain rfl := List.inj_on_of_nodup_map (nodup_fqns hplan) hs List.mem_cons_self hfqn
  exact ⟨hthere, _, run, next, hplan, hreaches, hcalls, hdependents _
    (List.mem_cons_of_mem _ (List.mem_cons_of_mem _ List.mem_cons_self)) rfl Config.requires_row⟩

end Workspace

end Rollout

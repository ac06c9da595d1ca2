import Rollout.Proofs.Plan.Asked
import Rollout.Proofs.Workspace.Rendering
import Rollout.Proofs.Workspace.Resumed
import Rollout.Proofs.Workspace.Teardown

/-!
# Each stack is submitted once at most

A call for a stack begins by describing it, and what it asks after that depends on how the stack was
described. Whatever a provider answers, no call opens the way to a second submission.

* `Finds`: how a call finds a stack.
* `Build.Allows` and `Destroy.Allows`: what a call may ask, by how it finds the stack.
* `Build.asksOnce_action`, `Destroy.asksOnce_action`: the calls keep to that, and submit once.
* `Workspace.submits_once`: so do all builds and all plans that destroy stacks, at any provider.
-/

namespace Rollout

open Job

/-- With the first of these exchanges, the last one of the list, a call describes a stack, and it
does not so again. -/
def Finds (exchanges : List Exchange) (fqn : String) (described : Option Deployment) : Prop :=
  ∃ later, exchanges = later ++ [⟨.describe fqn, .answer (.ok described)⟩] ∧
    ∀ e ∈ later, e.request ≠ .describe fqn

namespace Finds

variable {exchanges : List Exchange} {e : Exchange} {fqn : String} {described : Option Deployment}

theorem cons (h : Finds exchanges fqn described) (he : e.request ≠ .describe fqn) :
    Finds (e :: exchanges) fqn described := by
  obtain ⟨later, rfl, hlater⟩ := h
  exact ⟨e :: later, rfl, List.forall_mem_cons.2 ⟨he, hlater⟩⟩

end Finds

/-- Only outputs are asked for. -/
def Reading (exchanges : List Exchange) : Prop := ∀ e ∈ exchanges, ∃ fqn, e.request = .outputs fqn

theorem reading_nil : Reading [] := nofun

namespace Reading

variable {reads : List Exchange}

theorem finds (h : Reading reads) (fqn : String) (described : Option Deployment) :
    Finds (reads ++ [⟨.describe fqn, .answer (.ok described)⟩]) fqn described := by
  refine ⟨reads, rfl, fun e he hdescribe => ?_⟩
  obtain ⟨other, houtputs⟩ := h e he
  rw [houtputs] at hdescribe
  cases hdescribe

/-- Reading outputs does not count, if no request for outputs does. -/
theorem countP_eq_zero (h : Reading reads) {counts : Exchange → Bool}
    (hcounts : ∀ fqn reply, counts ⟨.outputs fqn, reply⟩ = false) : reads.countP counts = 0 := by
  refine List.countP_eq_zero.2 fun e he => ?_
  obtain ⟨request, reply⟩ := e
  obtain ⟨fqn, rfl⟩ := h _ he
  rw [hcounts]
  exact Bool.false_ne_true

end Reading

theorem finds_described (fqn : String) (described : Option Deployment) :
    Finds [⟨.describe fqn, .answer (.ok described)⟩] fqn described :=
  reading_nil.finds fqn described

/-- A job that reads outputs adds exchanges by which outputs are asked for. -/
theorem Job.ReadsOnly.upholds {α : Type} {job : Job α} {mayRead : String → Prop}
    (h : job.ReadsOnly mayRead) {P : List Exchange → Prop} {before : List Exchange}
    (hP : ∀ reads, Reading reads → P (reads ++ before)) :
    job.Upholds P (fun _ exchanges => ∃ reads, Reading reads ∧ exchanges = reads ++ before)
      before := by
  have key : ∀ reads, Reading reads → job.Upholds P
      (fun _ exchanges => ∃ reads, Reading reads ∧ exchanges = reads ++ before)
      (reads ++ before) := by
    induction job with
    | done value => exact fun reads hreads => ⟨hP reads hreads, reads, hreads, rfl⟩
    | ask request next ih =>
      intro reads hreads
      obtain ⟨⟨name, -, rfl⟩, hnext⟩ := h.of_ask
      have hmore : ∀ reply, Reading (⟨.outputs name, reply⟩ :: reads) := fun reply =>
        List.forall_mem_cons.2 ⟨⟨name, rfl⟩, hreads⟩
      exact ⟨hP reads hreads, fun message => ⟨hP _ (hmore _), _, hmore _, rfl⟩,
        fun result => ih result (hnext result) _ (hmore _)⟩
    | pause ms job ih => exact ih h.of_pause
    | callOff job ih => exact ih h.of_callOff
  exact key [] reading_nil

/-! ## Builds -/

namespace Build

/-- What a call that builds a stack may ask, with all that it has asked: it asks for outputs, or the
stack is enabled and the call describes it, creates it when it finds none, or updates the one it
finds unless this is locked. -/
inductive Allows (s : Stack) (exchanges : List Exchange) : Exchange → Prop where
  | outputs (fqn : String) (reply : Reply (Table String)) : Allows s exchanges ⟨.outputs fqn, reply⟩
  | describe (enabled : s.enabled = true) (reply : Reply (Option Deployment)) :
    Allows s exchanges ⟨.describe s.fqn, reply⟩
  | create (enabled : s.enabled = true) (finds : Finds exchanges s.fqn none)
      (template : RenderedTemplate) (reply : Reply Unit) :
    Allows s exchanges ⟨.create (submission s template), reply⟩
  | update (enabled : s.enabled = true) {existing : Deployment}
      (finds : Finds exchanges s.fqn (some existing)) (unblocked : s.isUpdateBlocked = false)
      (template : RenderedTemplate) (reply : Reply UpdateOutcome) :
    Allows s exchanges ⟨.update (submission s template), reply⟩

/-- The stack of a name is submitted. -/
def submits (fqn : String) (e : Exchange) : Bool := e.request.submission?.any (·.fqn = fqn)

variable {w : Workspace} {s : Stack} {exchanges : List Exchange} {e : Exchange}

theorem Allows.cons (h : Allows s exchanges e) {new : Exchange}
    (hnew : new.request ≠ .describe s.fqn) : Allows s (new :: exchanges) e := by
  cases h with
  | outputs fqn reply => exact .outputs fqn reply
  | describe enabled reply => exact .describe enabled reply
  | create enabled finds template reply => exact .create enabled (finds.cons hnew) template reply
  | update enabled finds unblocked template reply =>
    exact .update enabled (finds.cons hnew) unblocked template reply

/-- What is submitted is submitted for the stack. -/
theorem Allows.own (h : Allows s exchanges e) {fqn : String} (hsubmits : submits fqn e = true) :
    fqn = s.fqn := by
  cases h with
  | outputs _ _ => cases hsubmits
  | describe _ _ => cases hsubmits
  | create _ _ _ _ => exact (of_decide_eq_true hsubmits).symm
  | update _ _ _ _ _ => exact (of_decide_eq_true hsubmits).symm

/-- A call that has described the stack and read some outputs. -/
theorem heeds_reads (henabled : s.enabled = true) {reads : List Exchange} (h : Reading reads)
    (reply : Reply (Option Deployment)) (most : Nat) :
    Heeds (Allows s) (submits s.fqn) most (reads ++ [⟨.describe s.fqn, reply⟩]) := by
  refine ⟨fun e he => ?_, ?_⟩
  · rcases List.mem_append.1 he with he | he
    · obtain ⟨request, reply⟩ := e
      obtain ⟨fqn, rfl⟩ := h _ he
      exact .outputs fqn reply
    · obtain rfl := List.mem_singleton.1 he
      exact .describe henabled reply
  · rw [List.countP_append, h.countP_eq_zero fun _ _ => rfl]
    exact Nat.zero_le _

theorem heeds_described (henabled : s.enabled = true) (reply : Reply (Option Deployment))
    (most : Nat) : Heeds (Allows s) (submits s.fqn) most [⟨.describe s.fqn, reply⟩] :=
  heeds_reads henabled reading_nil reply most

/-- After that it may submit the stack. -/
theorem heeds_submitted (henabled : s.enabled = true) {reads : List Exchange} (h : Reading reads)
    {reply : Reply (Option Deployment)} {new : Exchange} (hnew : new.request ≠ .describe s.fqn)
    (hallowed : Allows s (new :: (reads ++ [⟨.describe s.fqn, reply⟩])) new) :
    Heeds (Allows s) (submits s.fqn) 1 (new :: (reads ++ [⟨.describe s.fqn, reply⟩])) := by
  obtain ⟨hreads, hnone⟩ := heeds_reads henabled h reply 0
  refine ⟨List.forall_mem_cons.2 ⟨hallowed, fun e he => (hreads e he).cons hnew⟩, ?_⟩
  rw [List.countP_cons, Nat.le_zero.1 hnone]
  split
  · exact Nat.le_refl 1
  · exact Nat.zero_le 1

section

variable (hw : w.lookups = .standard) (henabled : s.enabled = true)
include hw henabled

/-- The template is resolved first. -/
theorem upholds_resolve_bind {described : Option Deployment}
    {f : RenderedTemplate → ExceptT Error Job (Option Change × Status)}
    (h : ∀ template reads, Reading reads →
      (f template).run.Upholds (Heeds (Allows s) (submits s.fqn) 1)
        (AfterAttempt (LeavesSettled (submits s.fqn) Option.isSome false))
        (reads ++ [⟨.describe s.fqn, .answer (.ok described)⟩])) :
    (w.resolve s >>= f).run.Upholds (Heeds (Allows s) (submits s.fqn) 1)
      (AfterAttempt (LeavesSettled (submits s.fqn) Option.isSome false))
      [⟨.describe s.fqn, .answer (.ok described)⟩] := by
  have hresolve := (Workspace.readsOnly_resolve hw s).upholds fun reads hreads =>
    heeds_reads henabled hreads (.answer (.ok described)) 1
  refine upholds_bind_run hresolve (fun template exchanges _ hreads => ?_)
    (fun _ _ _ _ => trivial) fun _ _ _ _ => trivial
  obtain ⟨reads, hreads, rfl⟩ := hreads
  exact h template reads hreads

theorem upholds_createStack :
    (createStack w s).run.Upholds (Heeds (Allows s) (submits s.fqn) 1)
      (AfterAttempt (LeavesSettled (submits s.fqn) Option.isSome false))
      [⟨.describe s.fqn, .answer (.ok none)⟩] := by
  refine upholds_resolve_bind hw henabled fun template reads hreads => ?_
  have hsubmitted : ∀ reply : Reply Unit, Heeds (Allows s) (submits s.fqn) 1
      (⟨.create (submission s template), reply⟩ ::
        (reads ++ [⟨.describe s.fqn, .answer (.ok none)⟩])) := fun reply =>
    have hfinds : Finds (⟨.create (submission s template), reply⟩ ::
        (reads ++ [⟨.describe s.fqn, .answer (.ok none)⟩])) s.fqn none :=
      (hreads.finds s.fqn none).cons nofun
    heeds_submitted henabled hreads nofun (.create henabled hfinds template reply)
  exact upholds_request_bind (heeds_reads henabled hreads _ 1) hsubmitted
    (fun _ => ⟨hsubmitted _, .inl rfl⟩) (fun _ => trivial) fun _ => trivial

theorem upholds_updateStack (hunblocked : s.isUpdateBlocked = false) (existing : Deployment) :
    (updateStack w s).run.Upholds (Heeds (Allows s) (submits s.fqn) 1)
      (AfterAttempt (LeavesSettled (submits s.fqn) Option.isSome false))
      [⟨.describe s.fqn, .answer (.ok (some existing))⟩] := by
  refine upholds_resolve_bind hw henabled fun template reads hreads => ?_
  have hsubmitted : ∀ reply : Reply UpdateOutcome, Heeds (Allows s) (submits s.fqn) 1
      (⟨.update (submission s template), reply⟩ ::
        (reads ++ [⟨.describe s.fqn, .answer (.ok (some existing))⟩])) := fun reply =>
    have hfinds : Finds (⟨.update (submission s template), reply⟩ ::
        (reads ++ [⟨.describe s.fqn, .answer (.ok (some existing))⟩])) s.fqn (some existing) :=
      (hreads.finds s.fqn (some existing)).cons nofun
    heeds_submitted henabled hreads nofun (.update henabled hfinds hunblocked template reply)
  refine upholds_request_bind (heeds_reads henabled hreads _ 1) hsubmitted (fun outcome => ?_)
    (fun _ => trivial) fun _ => trivial
  cases outcome with
  | noChange => exact ⟨hsubmitted _, .inr (.inl rfl)⟩
  | submitted => exact ⟨hsubmitted _, .inl rfl⟩

/-- Nothing is submitted but in one of these two ways. A stack that is left alone is submitted later
or never. -/
theorem upholds_submit (status : Status) (described : Option Deployment) :
    (submit w s status described).run.Upholds (Heeds (Allows s) (submits s.fqn) 1)
      (AfterAttempt (LeavesSettled (submits s.fqn) Option.isSome false))
      [⟨.describe s.fqn, .answer (.ok described)⟩] := by
  have hdescribed := heeds_described henabled (.answer (.ok described)) 1
  cases described with
  | none => exact upholds_createStack hw henabled
  | some existing =>
    rw [submit]
    split
    · exact ⟨hdescribed, .inr (.inl rfl)⟩
    · next hunblocked =>
      split
      · exact ⟨hdescribed, .inr (.inl rfl)⟩
      · split
        · exact ⟨hdescribed, .inr (.inr ⟨rfl, rfl⟩)⟩
        · exact upholds_updateStack hw henabled (Bool.not_eq_true _ ▸ hunblocked) existing

end

theorem upholds_attempt (hw : w.lookups = .standard) (change : Option Change) (status : Status) :
    (attempt w s change status).run.Upholds
      (Heeds (Allows s) (submits s.fqn) (if change.isSome then 0 else 1))
      (AfterAttempt (LeavesSettled (submits s.fqn) Option.isSome change.isSome)) [] := by
  cases henabled : s.enabled with
  | false =>
    rw [attempt, henabled]
    exact ⟨.nil _ _ _, .inr (.inl rfl)⟩
  | true =>
    rw [attempt, henabled]
    refine upholds_request_bind (.nil _ _ _)
      (fun reply => heeds_described henabled reply _) (fun described => ?_) (fun _ => trivial)
      fun _ => trivial
    cases change with
    | some submitted => exact ⟨heeds_described henabled _ _, .inl rfl⟩
    | none => exact upholds_submit hw henabled status described

/-- Whatever the provider answers, the calls for a stack submit it once at most. -/
theorem asksOnce_action (hw : w.lookups = .standard) :
    (action w s).AsksOnce (Allows s) (submits s.fqn) Option.isSome := fun change status _ =>
  upholds_call (upholds_attempt hw change status) (fun _ _ => rfl) (fun _ => rfl)
    fun _ _ => .inr (.inl rfl)

end Build

/-! ## Plans that destroy stacks -/

namespace Destroy

/-- What a call that destroys a stack may ask, with all that it has asked: the stack is enabled, and
the call describes it, or destroys the one it finds, if no operation on it is in progress. -/
inductive Allows (s : Stack) (exchanges : List Exchange) : Exchange → Prop where
  | describe (enabled : s.enabled = true) (reply : Reply (Option Deployment)) :
    Allows s exchanges ⟨.describe s.fqn, reply⟩
  | destroy (enabled : s.enabled = true) {existing : Deployment}
      (finds : Finds exchanges s.fqn (some existing)) (there : existing.state.isDeleted = false)
      (settled : existing.state.isInProgress = false) (reply : Reply Unit) :
    Allows s exchanges ⟨.destroy s.fqn, reply⟩

/-- The stack of a name is to be destroyed. -/
def submits (fqn : String) (e : Exchange) : Bool := e.request = .destroy fqn

variable {s : Stack} {exchanges : List Exchange} {e : Exchange}

theorem Allows.own (h : Allows s exchanges e) {fqn : String} (hsubmits : submits fqn e = true) :
    fqn = s.fqn := by
  have hrequest : e.request = .destroy fqn := of_decide_eq_true hsubmits
  cases h with
  | describe _ _ => cases hrequest
  | destroy _ _ _ _ _ => exact (Request.destroy.inj hrequest).symm

/-- A call that has described the stack. -/
theorem heeds_described (henabled : s.enabled = true) (reply : Reply (Option Deployment))
    (most : Nat) : Heeds (Allows s) (submits s.fqn) most [⟨.describe s.fqn, reply⟩] := by
  refine ⟨fun e he => ?_, Nat.zero_le _⟩
  obtain rfl := List.mem_singleton.1 he
  exact .describe henabled reply

theorem upholds_submit (henabled : s.enabled = true) (status : Status)
    (described : Option Deployment) :
    (submit s status described).run.Upholds (Heeds (Allows s) (submits s.fqn) 1)
      (AfterAttempt (LeavesSettled (submits s.fqn) id false))
      [⟨.describe s.fqn, .answer (.ok described)⟩] := by
  have hdescribed := heeds_described henabled (.answer (.ok described)) 1
  cases described with
  | none => exact ⟨hdescribed, .inr (.inl rfl)⟩
  | some d =>
    rw [submit]
    split
    · exact ⟨hdescribed, .inr (.inl rfl)⟩
    · next hthere =>
      split
      · exact ⟨hdescribed, .inl rfl⟩
      · split
        · exact ⟨hdescribed, .inr (.inr ⟨rfl, rfl⟩)⟩
        · next hsettled =>
          have hsubmitted : ∀ reply : Reply Unit, Heeds (Allows s) (submits s.fqn) 1
              [⟨.destroy s.fqn, reply⟩, ⟨.describe s.fqn, .answer (.ok (some d))⟩] := by
            refine fun reply => ⟨List.forall_mem_cons.2 ⟨?_, fun e he => ?_⟩, ?_⟩
            · have hfinds : Finds [⟨.destroy s.fqn, reply⟩,
                  ⟨.describe s.fqn, .answer (.ok (some d))⟩] s.fqn (some d) :=
                (finds_described s.fqn (some d)).cons Request.noConfusion
              exact .destroy henabled hfinds (Bool.not_eq_true _ ▸ hthere)
                (Bool.not_eq_true _ ▸ hsettled) reply
            · obtain rfl := List.mem_singleton.1 he
              exact .describe henabled _
            · simp [submits]
          exact upholds_request_bind hdescribed hsubmitted (fun _ => ⟨hsubmitted _, .inl rfl⟩)
            (fun _ => trivial) fun _ => trivial

theorem upholds_attempt (submitted : Bool) (status : Status) :
    (attempt s submitted status).run.Upholds
      (Heeds (Allows s) (submits s.fqn) (if submitted then 0 else 1))
      (AfterAttempt (LeavesSettled (submits s.fqn) id submitted)) [] := by
  cases henabled : s.enabled with
  | false =>
    rw [attempt, henabled]
    exact ⟨.nil _ _ _, .inr (.inl rfl)⟩
  | true =>
    rw [attempt, henabled]
    refine upholds_request_bind (.nil _ _ _)
      (fun reply => heeds_described henabled reply _) (fun described => ?_) (fun _ => trivial)
      fun _ => trivial
    cases submitted with
    | true => exact ⟨heeds_described henabled _ _, .inl rfl⟩
    | false => exact upholds_submit henabled status described

/-- Whatever the provider answers, the calls for a stack ask once at most to destroy it. -/
theorem asksOnce_action : (action s).AsksOnce (Allows s) (submits s.fqn) id :=
  fun submitted status _ =>
    upholds_call (upholds_attempt submitted status) (fun _ _ => rfl) (fun _ => rfl)
      fun _ _ => .inr (.inl rfl)

end Destroy

/-! ## Runs -/

theorem Recorded.length_submissions {σ : Type} (world : Recorded σ) (fqn : String) :
    (world.submissions fqn).length = world.exchanges.countP (Build.submits fqn) := by
  rw [submissions, ← List.countP_eq_length_filter, List.countP_filterMap]
  refine List.countP_congr fun e _ => ?_
  rw [Build.submits]
  cases e.request.submission? <;> rfl

namespace Workspace

variable {w : Workspace} {id description : String} {targets : Option (List String)}
  {reverse : Bool}

/-- If the calls for each stack keep to a rule, and ask what counts about that stack only, so it is
in a run of their plan. -/
theorem orderly_plan {μ σ : Type} {action : Stack → Action μ} {memo : μ} {p : Plan μ}
    (planned : w.plan id description targets reverse action memo = .ok p) {poll : PollPolicy}
    {sink : Sink} {provider : Provider σ} {walker : Walker} {world : σ} {run : Run μ (Recorded σ)}
    {history : String → List CallRecord}
    (h : Plan.Chronicle { p with poll, sink } provider walker world run history)
    {allows : Stack → List Exchange → Exchange → Prop} {counts : String → Exchange → Bool}
    {settled : μ → Bool}
    (hcalls : ∀ s, (action s).AsksOnce (allows s) (counts s.fqn) settled)
    (hown : ∀ s exchanges e fqn, allows s exchanges e → counts fqn e = true → fqn = s.fqn) :
    (∀ e ∈ run.world.exchanges, ∃ s ∈ w.members, s.fqn ∈ p.graph.dag.nodes ∧
      ∃ call ∈ history s.fqn, e ∈ call.exchanges ∧ allows s call.exchanges e) ∧
    ∀ fqn, run.world.exchanges.countP (counts fqn) ≤ 1 := by
  have hsound : p.graph.Sound := sound_plan planned
  have hsteps : ∀ name step, p.graph.get? name = some step → step.action.AsksOnce
      (fun exchanges e => ∃ s ∈ w.members, s.fqn = name ∧ allows s exchanges e) (counts name)
      settled := by
    intro name step hstep
    obtain ⟨s, hs, rfl, rfl⟩ := exists_member_of_get? planned hstep
    exact (hcalls s).mono fun _ _ hallows => ⟨s, hs, rfl, hallows⟩
  obtain ⟨hallowed, honce⟩ := Plan.Chronicle.orderly (p := { p with poll, sink }) hsound h hsteps
    fun name other exchanges e hallows hcounts => by
      obtain ⟨s, -, rfl, hallows⟩ := hallows
      exact hown s exchanges e other hallows hcounts
  refine ⟨fun e he => ?_, honce⟩
  obtain ⟨_, hname, call, hcall, he, s, hs, rfl, hallows⟩ := hallowed e he
  exact ⟨s, hs, hname, call, hcall, he, hallows⟩

/-- Let the lookups be the standard ones. In a run of a build, all that the provider is asked it is
asked by a call for a stack of the plan, which may ask that, and each stack is submitted once at
most. The same is true of plans that destroy stacks. So it is for all targets, whatever the provider
answers or breaks down over, whoever listens, whatever the schedule, and whether or not the run was
called off. -/
theorem submits_once {σ : Type} (hw : w.lookups = .standard) (id : String)
    (targets : Option (List String)) (poll : PollPolicy) (sink : Sink) (provider : Provider σ)
    (walker : Walker) (world : σ) :
    (∀ p run history, w.buildPlan id targets = .ok p →
      Plan.Chronicle { p with poll, sink } provider walker world run history →
      (∀ e ∈ run.world.exchanges, ∃ s ∈ w.members, s.fqn ∈ p.graph.dag.nodes ∧
        ∃ call ∈ history s.fqn, e ∈ call.exchanges ∧ Build.Allows s call.exchanges e) ∧
      ∀ fqn, (run.world.submissions fqn).length ≤ 1) ∧
    ∀ p run history, w.destroyPlan id targets = .ok p →
      Plan.Chronicle { p with poll, sink } provider walker world run history →
      (∀ e ∈ run.world.exchanges, ∃ s ∈ w.members, s.fqn ∈ p.graph.dag.nodes ∧
        ∃ call ∈ history s.fqn, e ∈ call.exchanges ∧ Destroy.Allows s call.exchanges e) ∧
      ∀ fqn, run.world.exchanges.countP (·.request = .destroy fqn) ≤ 1 := by
  constructor
  · intro p run history planned h
    obtain ⟨hallowed, honce⟩ := orderly_plan planned h (fun _ => Build.asksOnce_action hw)
      fun _ _ _ _ hallows => hallows.own
    refine ⟨hallowed, fun fqn => ?_⟩
    rw [Recorded.length_submissions]
    exact honce fqn
  · intro p run history planned h
    exact orderly_plan planned h (fun _ => Destroy.asksOnce_action) fun _ _ _ _ hallows =>
      hallows.own

/-- The moves of a build after which the first stack has been created. -/
theorem plays_created :
    (StepGraph.ofSteps (chained.members.map
      (chained.stepOf (Build.action chained) none))).toOption.any (fun graph =>
        (Plan.playsAtOnce
          { id := "one", description := "Create/Update stacks", graph, poll := .fixed 0 }
          (Provider.recorded .simulated) .sequential ⟨.chained, []⟩ (visit "n-a" 17)).any fun run =>
            0 < (run.world.submissions "n-a").length) = true := by
  decide +kernel

/-- The moves after which the first stack in a row has been destroyed. -/
theorem plays_destroyed (poll : PollPolicy) :
    (StepGraph.ofSteps (row.members.map (row.stepOf Destroy.action false))).toOption.any
      (fun graph => (Plan.resolveTargets graph.transpose.toList ["a"]).toOption.any fun names =>
        (graph.transpose.restrict names).toOption.any fun graph =>
          (Plan.plays { id := "two", description := "Destroy stacks", graph, poll }
            (Provider.recorded .simulated) .sequential ⟨({} : Simulator).after Simulator.row, []⟩
            (visit "n-c" 6 ++ visit "n-b" 5 ++ List.replicate 5 (.work "n-a"))).any fun run =>
              0 < run.world.exchanges.countP (·.request = .destroy "n-a")) = true := by
  cbv

/-- One stack has been created, and another one destroyed. No run does so again. -/
theorem submits_once_created :
    ∃ (p : Plan (Option Change)) (run : Run (Option Change) (Recorded Simulator)) (q : Plan Bool)
      (run' : Run Bool (Recorded Simulator)) (history history' : String → List CallRecord),
      chained.buildPlan "one" none = .ok p ∧
      Plan.Chronicle { p with poll := .fixed 0, sink := .sound } .simulated .sequential .chained run
        history ∧
      (run.world.submissions "n-a").length = 1 ∧ row.destroyPlan "two" (some ["a"]) = .ok q ∧
      Plan.Chronicle { q with poll := .fixed 0, sink := .sound } .simulated .sequential
        (({} : Simulator).after Simulator.row) run' history' ∧
      run'.world.exchanges.countP (·.request = .destroy "n-a") = 1 := by
  obtain ⟨graph, hgraph, h⟩ := (Option.any_eq_true _ _).1 plays_created
  obtain ⟨run, hrun, hcreated⟩ := (Option.any_eq_true _ _).1 h
  rw [Plan.playsAtOnce_eq] at hrun
  obtain ⟨history, hhistory⟩ := (Plan.reaches_of_plays hrun).exists_history
  have hplan := buildPlan_eq_ok (Except.toOption_eq_some_iff.1 hgraph) "one"
  obtain ⟨graph', hgraph', h⟩ := (Option.any_eq_true _ _).1 (plays_destroyed (.fixed 0))
  obtain ⟨names, hnames, h⟩ := (Option.any_eq_true _ _).1 h
  obtain ⟨narrowed, hnarrowed, h⟩ := (Option.any_eq_true _ _).1 h
  obtain ⟨run', hrun', hdestroyed⟩ := (Option.any_eq_true _ _).1 h
  obtain ⟨history', hhistory'⟩ := (Plan.reaches_of_plays hrun').exists_history
  have hplan' := destroyPlan_eq_ok (Except.toOption_eq_some_iff.1 hgraph')
    (Except.toOption_eq_some_iff.1 hnames) (Except.toOption_eq_some_iff.1 hnarrowed) "two"
  have honce := ((submits_once (w := chained) rfl "one" none (.fixed 0) .sound .simulated
    .sequential .chained).1 _ run history hplan hhistory).2 "n-a"
  have honce' := ((submits_once (w := row) rfl "two" (some ["a"]) (.fixed 0) .sound .simulated
    .sequential (({} : Simulator).after Simulator.row)).2 _ run' history' hplan' hhistory').2 "n-a"
  exact ⟨_, run, _, run', history, history', hplan, hhistory,
    Nat.le_antisymm honce (of_decide_eq_true hcreated), hplan', hhistory',
    Nat.le_antisymm honce' (of_decide_eq_true hdestroyed)⟩

end Workspace

end Rollout

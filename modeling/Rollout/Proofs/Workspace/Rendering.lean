import Rollout.Proofs.Plan.Contract
import Rollout.Proofs.Provider.Submissions
import Rollout.Proofs.Workspace.Wiring

/-!
# What a template is rendered from

To render the template of a stack nothing is asked but the outputs of the stacks that its variables
read. The template is a matter of the records of these stacks.

* `Job.ReadsOnly`: a job that asks for outputs only.
* `Job.ReadsOnly.perform_congr_outputs`, `Job.ReadsOnly.ensures`: it changes nothing, and what comes
  of it depends on the outputs that it reads.
* `Workspace.Reads`, `Workspace.Renders`: what a stack reads, and what its template is.
* `Stack.readsOnly_resolve`, `Workspace.readsOnly_resolve`: no other outputs are asked for.
-/

namespace Rollout

namespace Job

variable {α : Type} {mayRead : String → Prop}

/-- Whatever it is answered, the job asks for nothing but the outputs of some stacks. -/
def ReadsOnly (mayRead : String → Prop) (job : Job α) : Prop :=
  ∀ request, job.Asks request → ∃ name, mayRead name ∧ request = .outputs name

/-- A job that keeps to any stack keeps to none. -/
theorem readsOnly_of_keepsTo {job : Job α} (h : ∀ own, job.KeepsTo own mayRead) :
    job.ReadsOnly mayRead := by
  intro request hrequest
  obtain ⟨own, hother⟩ : ∃ own, request.fqn ≠ own := by
    by_cases hempty : request.fqn = ""
    · exact ⟨"other", by rw [hempty]; decide⟩
    · exact ⟨"", hempty⟩
  exact (h own request hrequest).resolve_left hother

namespace ReadsOnly

variable {job : Job α}

theorem of_ask {request : Request} {next : Except Error request.Answer → Job α}
    (h : (ask request next).ReadsOnly mayRead) :
    (∃ name, mayRead name ∧ request = .outputs name) ∧
      ∀ answer, (next answer).ReadsOnly mayRead :=
  ⟨h request .now, fun answer other hother => h other (.later answer hother)⟩

theorem of_pause {ms : Nat} (h : (pause ms job).ReadsOnly mayRead) : job.ReadsOnly mayRead :=
  fun request hrequest => h request (.pause hrequest)

theorem of_callOff (h : (callOff job).ReadsOnly mayRead) : job.ReadsOnly mayRead :=
  fun request hrequest => h request (.callOff hrequest)

/-- What comes of the job is a matter of the outputs that it reads. -/
theorem perform_congr_outputs (h : job.ReadsOnly mayRead) {s t : Simulator}
    (houtputs : ∀ name, mayRead name → t.outputsOf name = s.outputsOf name) :
    (job.perform .simulated t).2 = (job.perform .simulated s).2 := by
  induction job generalizing s t with
  | done value => rfl
  | ask request next ih =>
    obtain ⟨⟨name, hname, rfl⟩, hnext⟩ := h.of_ask
    show (Job.perform _ (next (t.outputsOf name)) _).2 =
      (Job.perform _ (next (s.outputsOf name)) _).2
    rw [houtputs name hname]
    exact ih _ (hnext _) houtputs
  | pause ms job ih => exact ih h.of_pause houtputs
  | callOff job ih => exact ih h.of_callOff houtputs

/-- What comes of the job is a matter of the records that it reads. -/
theorem perform_congr (h : job.ReadsOnly mayRead) {s t : Simulator}
    (hrecords : ∀ name, mayRead name → t.records.get? name = s.records.get? name) :
    (job.perform .simulated t).2 = (job.perform .simulated s).2 :=
  h.perform_congr_outputs fun name hname => by
    rw [Simulator.outputsOf, Simulator.outputsOf, hrecords name hname]

/-- Among others the job ends with a value. If the others leave alone what it reads, the value is
the one that it would end with in the end. -/
theorem ensures (h : job.ReadsOnly mayRead) {t : Terms Provider.simulated.recorded}
    (hasks : ∀ name, t.asks (.outputs name))
    (hstays : ∀ world name,
      t.rely world (Provider.simulated.recorded.respond world (.outputs name)).1)
    (world : Recorded Simulator) :
    job.Ensures t (fun result later => t.rely world later ∧ (∃ value, result = .ok value) ∧
      ((∀ before after, t.rely before after → ∀ name, mayRead name →
          after.inner.records.get? name = before.inner.records.get? name) →
        result = (job.perform .simulated later.inner).2)) world := by
  induction job generalizing world with
  | done value => exact fun later hlater => ⟨hlater, ⟨value, rfl⟩, fun _ => rfl⟩
  | ask request next ih =>
    obtain ⟨⟨name, hname, rfl⟩, hnext⟩ := h.of_ask
    refine ensures_ask (hasks name) fun later hlater => ⟨_, later.inner.outputsOf name, rfl, ?_⟩
    refine (ih _ (hnext _) _).mono ?_
    rintro result last ⟨hlast, hvalue, hresult⟩
    refine ⟨t.trans hlater (t.trans (hstays later name) hlast), hvalue, fun hkept => ?_⟩
    rw [hresult hkept]
    have hsame := hkept later last (t.trans (hstays later name) hlast) name hname
    have houtputs : last.inner.outputsOf name = later.inner.outputsOf name := by
      rw [Simulator.outputsOf, Simulator.outputsOf, hsame]
    show _ = (Job.perform _ (next (last.inner.outputsOf name)) _).2
    rw [houtputs]
    exact perform_congr (hnext _) fun _ _ => rfl
  | pause ms job ih => exact ih h.of_pause world
  | callOff job ih => exact ih h.of_callOff world

end ReadsOnly

end Job

/-- With the standard lookups a stack is resolved by asking for the outputs that its variables
read. -/
theorem Stack.readsOnly_resolve (s : Stack) (blueprints : BlueprintRegistry)
    (ctx : LookupContext) :
    (s.resolve .standard blueprints ctx).run.ReadsOnly fun fqn =>
      ∃ value ∈ s.vars.values, ∃ stack, ReadsOutput value stack ∧ fqn = ctx.fqnFor stack := by
  refine Job.readsOnly_of_keepsTo fun own => ?_
  refine Job.keepsTo_bind_run (LookupRegistry.keepsTo_resolveAll ?_) fun vars => Job.keepsTo_done _
  exact fun value hvalue stack hreads => .inr ⟨_, ⟨value, hvalue, stack, hreads, rfl⟩, rfl⟩

namespace Workspace

/-- The variables of a stack read outputs of the stack of a name at the provider. -/
def Reads (w : Workspace) (s : Stack) (fqn : String) : Prop :=
  ∃ value ∈ s.vars.values, ∃ stack, ReadsOutput value stack ∧ fqn = w.lookupContext.fqnFor stack

/-- The template of a stack, as long as the records of the provider stay as they are. -/
def Renders (w : Workspace) (s : Stack) (world : Simulator) (template : RenderedTemplate) : Prop :=
  ((w.resolve s).run.perform .simulated world).2 = .ok (.ok template)

variable {w : Workspace} {s : Stack} {world later : Simulator} {template : RenderedTemplate}

/-- With the standard lookups a template asks for the outputs that the variables read. -/
theorem readsOnly_resolve (h : w.lookups = .standard) (s : Stack) :
    (w.resolve s).run.ReadsOnly (w.Reads s) := by
  rw [resolve, h]
  exact s.readsOnly_resolve w.blueprints w.lookupContext

theorem Renders.congr (hw : w.lookups = .standard) (h : w.Renders s world template)
    (hrecords : ∀ fqn, w.Reads s fqn → later.records.get? fqn = world.records.get? fqn) :
    w.Renders s later template :=
  ((readsOnly_resolve hw s).perform_congr hrecords).trans h

end Workspace

end Rollout

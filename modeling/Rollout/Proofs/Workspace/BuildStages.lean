import Rollout.Proofs.Provider.Record
import Rollout.Proofs.Provider.Terms
import Rollout.Proofs.Workspace.Footprint
import Rollout.Proofs.Workspace.Rendering

/-!
# The stages of a build

What a step that builds a stack knows of it between two calls: what has been submitted for the
stack, which template that was, and how its record stands.

* `Build.terms`: nobody else touches what the step works with.
* `Build.Submitted`: the template that was submitted, once in the run.
* `Build.Stage`: the stages, one for each way in which a call can end.
* `Build.ensures_action` and `Build.contract`: every call leads from a stage to a stage.
-/

namespace Rollout

open Job

namespace Build

variable {p : Plan (Option Change)} {w : Workspace} {s : Stack} {origin : Simulator}
  {world later : Recorded Simulator} {change : Option Change} {status : Status}
  {template : RenderedTemplate}

/-! ## Terms -/

/-- The record of a stack is as it was, so are those of all stacks that its step depends on, and
nothing more has been submitted for it. -/
structure Kept (p : Plan (Option Change)) (name : String) (world later : Recorded Simulator) :
    Prop where
  own : later.inner.records.get? name = world.inner.records.get? name
  needs : ∀ m, p.graph.dag.Path name m →
    later.inner.records.get? m = world.inner.records.get? m
  submissions : later.submissions name = world.submissions name

/-- A step asks about its own stack, or for outputs of others, and relies on the stacks that it has
to do with being left alone. -/
def terms (p : Plan (Option Change)) (name : String) : Terms Provider.simulated.recorded where
  rely := Kept p name
  refl _ := ⟨rfl, fun _ _ => rfl, rfl⟩
  trans h h' := ⟨h'.own.trans h.own, fun m hm => (h'.needs m hm).trans (h.needs m hm),
    h'.submissions.trans h.submissions⟩
  asks r := r.KeepsTo name fun _ => True

theorem submissions_of_keepsTo {name other : String} {r : Request} {mayRead : String → Prop}
    (h : r.KeepsTo other mayRead) (hne : name ≠ other) (world : Recorded Simulator) :
    (Provider.simulated.recorded.respond world r).1.submissions name = world.submissions name := by
  rcases h with rfl | ⟨_, -, rfl⟩
  · exact Recorded.submissions_cons_of_ne world _ hne
  · exact Recorded.submissions_cons_of_none world _ rfl name

/-- Steps on these terms leave each other alone. -/
theorem kept_respond {name other : String} {r : Request} (world : Recorded Simulator)
    (hne : other ≠ name) (hneeds : ¬ p.graph.dag.Path name other) (h : (terms p other).asks r) :
    Kept p name world (Provider.simulated.recorded.respond world r).1 where
  own := (Simulator.respond_of_keepsTo h hne.symm world.inner).record
  needs _ hm := (Simulator.respond_of_keepsTo h (fun heq => hneeds (heq ▸ hm)) world.inner).record
  submissions := submissions_of_keepsTo h hne.symm world

/-- Asking for outputs changes none of that. -/
theorem kept_outputs (name other : String) (world : Recorded Simulator) :
    Kept p name world (Provider.simulated.recorded.respond world (.outputs other)).1 where
  own := rfl
  needs _ _ := rfl
  submissions := Recorded.submissions_cons_of_none world _ rfl name

/-- A request about the stack of a step leaves all stacks alone that the step depends on. -/
theorem needs_respond (hp : p.graph.Sound) {name m : String} (hm : p.graph.dag.Path name m)
    {r : Request} (hr : r.fqn = name) {before after : Simulator} {reply : Reply r.Answer}
    (hrespond : Provider.simulated.respond before r = (after, reply)) :
    after.records.get? m = before.records.get? m := by
  have hne : m ≠ r.fqn := by
    rw [hr]
    rintro rfl
    exact hp.wellFormed.acyclic m hm
  have hrecord := (Simulator.respond_elsewhere hne before).record
  rwa [hrespond] at hrecord

/-! ## The template -/

/-- If a stack reads outputs only of stacks that its step depends on, the template is the one that
is rendered for it. -/
def Rendered (p : Plan (Option Change)) (w : Workspace) (s : Stack) (world : Simulator)
    (template : RenderedTemplate) : Prop :=
  (∀ fqn, w.Reads s fqn → p.graph.dag.Path s.fqn fqn) → w.Renders s world template

theorem Rendered.congr {world later : Simulator} (hw : w.lookups = .standard)
    (h : Rendered p w s world template)
    (hneeds : ∀ m, p.graph.dag.Path s.fqn m → later.records.get? m = world.records.get? m) :
    Rendered p w s later template :=
  fun hreads => (h hreads).congr hw fun fqn hfqn => hneeds fqn (hreads fqn hfqn)

/-- The template has been submitted for a stack, and nothing else was. The stack, if it is there,
has its hash. -/
structure Submitted (p : Plan (Option Change)) (w : Workspace) (s : Stack)
    (template : RenderedTemplate) (world : Recorded Simulator) : Prop where
  once : world.submissions s.fqn = [submission s template]
  rendered : Rendered p w s world.inner template
  hash : ∀ r, world.inner.records.get? s.fqn = some r →
    r.stack.templateHash = some template.hash

namespace Submitted

theorem rely (h : Submitted p w s template world) (hw : w.lookups = .standard)
    (hkept : Kept p s.fqn world later) : Submitted p w s template later where
  once := hkept.submissions.trans h.once
  rendered := h.rendered.congr hw hkept.needs
  hash r hr := h.hash r (hkept.own.symm.trans hr)

/-- Describing the stack changes none of that. -/
theorem describe (h : Submitted p w s template world) (hp : p.graph.Sound)
    (hw : w.lookups = .standard) {after : Simulator}
    {described : Option Deployment} {reply : Reply (Request.describe s.fqn).Answer}
    (hrespond : Provider.simulated.respond world.inner (.describe s.fqn) = (after, reply))
    (hdescribed : Simulator.Described s.fqn world.inner after described) :
    Submitted p w s template ⟨after, ⟨.describe s.fqn, reply⟩ :: world.exchanges⟩ := by
  refine
    { once := (Recorded.submissions_cons_of_none world after rfl _).trans h.once
      rendered := h.rendered.congr hw fun m hm => needs_respond hp hm rfl hrespond
      hash := fun r hr => ?_ }
  obtain ⟨outputs, old, hold, rfl⟩ := hdescribed.exists_tick hr
  exact (Simulator.templateHash_tick outputs old).trans (h.hash old hold)

/-- What is submitted first is the only submission. -/
theorem of_respond (hp : p.graph.Sound) (hw : w.lookups = .standard) {r : Request}
    (hr : r.submission? = some (submission s template)) (hnone : world.submissions s.fqn = [])
    (hrendered : Rendered p w s world.inner template) {after : Simulator} {reply : Reply r.Answer}
    (hrespond : Provider.simulated.respond world.inner r = (after, reply))
    {record : Simulator.Record} (hrecord : after.records.get? s.fqn = some record)
    (hhash : record.stack.templateHash = some template.hash) :
    Submitted p w s template ⟨after, ⟨r, reply⟩ :: world.exchanges⟩ := by
  refine
    { once := ?_
      rendered := hrendered.congr hw fun m hm =>
        needs_respond hp hm (Request.fqn_of_submission? hr).symm hrespond
      hash := fun found hfound => ?_ }
  · have hnoted : (Exchange.mk r reply).request.submission? = some (submission s template) := hr
    rw [← hnone]
    exact Recorded.submissions_cons_of_some world after hnoted
  · obtain rfl := Option.some.inj (hrecord.symm.trans hfound)
    exact hhash

end Submitted

/-! ## Stages -/

/-- How far a step has come with a stack, with what has been submitted and where the step stands. -/
inductive Stage (p : Plan (Option Change)) (w : Workspace) (origin : Simulator) (s : Stack)
    (world : Recorded Simulator) : Option Change → Status → Prop where
  /-- Nothing has been submitted. If the stack is to be left alone, nobody has looked at it yet. -/
  | waits {status : Status} (opened : status.isDone = false)
      (nothing : world.submissions s.fqn = [])
      (unseen : s.isUpdateBlocked = true →
        world.inner.records.get? s.fqn = origin.records.get? s.fqn) :
      Stage p w origin s world none status
  /-- A template has been submitted. -/
  | underWay {change : Change} {status : Status} {template : RenderedTemplate}
      (opened : status.isDone = false) (submitted : Submitted p w s template world) :
      Stage p w origin s world (some change) status
  /-- The stack is there and is left alone. If it is in progress, it was from the first. -/
  | leftAlone {record : Simulator.Record} (blocked : s.isUpdateBlocked = true)
      (there : world.inner.records.get? s.fqn = some record)
      (present : record.stack.state.isDeleted = false)
      (progress : record.stack.state.isInProgress = true →
        ∃ old, origin.records.get? s.fqn = some old ∧ old.stack.state.isInProgress = true) :
      Stage p w origin s world none (.skipped (some "locked"))
  /-- The template is the one that was submitted last before. -/
  | unchanged {template : RenderedTemplate} {record : Simulator.Record}
      (submitted : Submitted p w s template world)
      (there : world.inner.records.get? s.fqn = some record)
      (present : record.stack.state.isDeleted = false)
      (settled : record.stack.state.isInProgress = false)
      (sound : record.stack.state ≠ .rollbackComplete) :
      Stage p w origin s world none (.skipped (some "nochange"))
  /-- The change is complete. -/
  | complete {change : Change} {template : RenderedTemplate} {record : Simulator.Record}
      {reason : Option String} (submitted : Submitted p w s template world)
      (there : world.inner.records.get? s.fqn = some record)
      (completed : record.stack.state.isComplete = true) :
      Stage p w origin s world (some change) (.complete reason)
  /-- Something went wrong. -/
  | failed (change : Option Change) (reason : Option String) :
      Stage p w origin s world change (.failed reason)

/-- As long as others leave the stack alone it stays at its stage. -/
theorem Stage.rely (h : Stage p w origin s world change status) (hw : w.lookups = .standard)
    (hkept : Kept p s.fqn world later) : Stage p w origin s later change status := by
  cases h with
  | waits opened nothing unseen =>
    exact .waits opened (hkept.submissions.trans nothing) fun hblocked =>
      hkept.own.trans (unseen hblocked)
  | underWay opened submitted => exact .underWay opened (submitted.rely hw hkept)
  | leftAlone blocked there present progress =>
    exact .leftAlone blocked (hkept.own.trans there) present progress
  | unchanged submitted there present settled sound =>
    exact .unchanged (submitted.rely hw hkept) (hkept.own.trans there) present settled sound
  | complete submitted there completed =>
    exact .complete (submitted.rely hw hkept) (hkept.own.trans there) completed
  | failed change reason => exact .failed change reason

/-! ## Calls -/

/-- What is true between the calls for a stack. -/
def Stands (p : Plan (Option Change)) (w : Workspace) (origin : Simulator) (s : Stack)
    (change : Option Change) (status : Status) (world : Recorded Simulator) : Prop :=
  s.enabled = true → Stage p w origin s world change status

/-- A request about the stack. -/
theorem asks_own {r : Request} (h : r.fqn = s.fqn) : (terms p s.fqn).asks r := .inl h

section

variable (hw : w.lookups = .standard)
include hw

theorem Stands.rely (h : Stands p w origin s change status world)
    (hkept : (terms p s.fqn).rely world later) : Stands p w origin s change status later :=
  fun henabled => (h henabled).rely hw hkept

/-- An attempt that asks nothing more. -/
theorem ensures_pure (h : Stage p w origin s world change status) :
    (pure (change, status) : ExceptT Error Job (Option Change × Status)).run.Ensures
      (terms p s.fqn) (AfterAttempt (Stands p w origin s)) world :=
  fun _ hlater _ => h.rely hw hlater

/-- A job goes on with the template of the stack, unless there is none. -/
theorem ensures_resolve {f : RenderedTemplate → ExceptT Error Job (Option Change × Status)}
    (hf : ∀ template later, Kept p s.fqn world later → Rendered p w s later.inner template →
      (f template).run.Ensures (terms p s.fqn) (AfterAttempt (Stands p w origin s)) later) :
    (w.resolve s >>= f).run.Ensures (terms p s.fqn) (AfterAttempt (Stands p w origin s)) world := by
  have hreads := (Workspace.readsOnly_resolve hw s).ensures (t := terms p s.fqn)
    (fun name => .inr ⟨name, trivial, rfl⟩) (fun world name => kept_outputs s.fqn name world) world
  refine ensures_bind_run hreads (fun template later hmid => ?_) (fun _ _ _ _ _ => trivial)
    fun _ _ _ => trivial
  obtain ⟨hkept, -, hrendered⟩ := hmid
  refine hf template later hkept fun hneeds => ?_
  exact (hrendered fun _ _ hrely name hname => hrely.needs name (hneeds name hname)).symm

variable (hp : p.graph.Sound)
include hp

/-- Creating a stack that is not there submits its template. -/
theorem ensures_createStack (hsubmissions : world.submissions s.fqn = [])
    (hnone : world.inner.records.get? s.fqn = none) :
    (createStack w s).run.Ensures (terms p s.fqn) (AfterAttempt (Stands p w origin s)) world := by
  refine ensures_resolve hw fun template mid hmid hrendered => ?_
  refine ensures_request_bind (asks_own rfl) fun later hlater => ?_
  have hsame := (terms p s.fqn).trans hmid hlater
  obtain ⟨after, record, hrespond, hrecord, hhash⟩ := Simulator.respond_create
    (submission s template) (hsame.own.trans hnone)
  have hsubmitted := Submitted.of_respond hp hw rfl (hsame.submissions.trans hsubmissions)
    (hrendered.congr hw hlater.needs) hrespond hrecord hhash
  exact ⟨_, .ok (), Provider.respond_recorded hrespond, ensures_pure hw (.underWay rfl hsubmitted)⟩

/-- Updating a stack submits its template, whether or not it has changed. -/
theorem ensures_updateStack (hsubmissions : world.submissions s.fqn = [])
    {record : Simulator.Record} (hthere : world.inner.records.get? s.fqn = some record)
    (hpresent : record.stack.state.isDeleted = false)
    (hsettled : record.stack.state.isInProgress = false)
    (hsound : record.stack.state ≠ .rollbackComplete) :
    (updateStack w s).run.Ensures (terms p s.fqn) (AfterAttempt (Stands p w origin s)) world := by
  refine ensures_resolve hw fun template mid hmid hrendered => ?_
  refine ensures_request_bind (asks_own rfl) fun later hlater => ?_
  have hsame := (terms p s.fqn).trans hmid hlater
  have hrecord := hsame.own.trans hthere
  obtain ⟨after, hcases⟩ := Simulator.respond_update (submission s template) hrecord hsettled
  have hnone := hsame.submissions.trans hsubmissions
  have hrendered := hrendered.congr hw hlater.needs
  split at hcases
  · next hhash =>
    obtain ⟨hrespond, hafter⟩ := hcases
    have hsubmitted := Submitted.of_respond hp hw rfl hnone hrendered hrespond hafter hhash
    exact ⟨_, .ok .noChange, Provider.respond_recorded hrespond,
      ensures_pure hw (.unchanged hsubmitted hafter hpresent hsettled hsound)⟩
  · obtain ⟨hrespond, record', hafter, hhash⟩ := hcases
    have hsubmitted := Submitted.of_respond hp hw rfl hnone hrendered hrespond hafter hhash
    exact ⟨_, .ok .submitted, Provider.respond_recorded hrespond,
      ensures_pure hw (.underWay rfl hsubmitted)⟩

/-- The first attempts decide by how the stack is described. -/
theorem ensures_submit (hopen : status.isDone = false) (hsubmissions : world.submissions s.fqn = [])
    {before : Simulator} {described : Option Deployment}
    (hdescribed : Simulator.Described s.fqn before world.inner described)
    (horderly : origin.Throughout Simulator.Orderly)
    (hunseen : s.isUpdateBlocked = true →
      before.records.get? s.fqn = origin.records.get? s.fqn) :
    (submit w s status described).run.Ensures (terms p s.fqn)
      (AfterAttempt (Stands p w origin s)) world := by
  cases hdescribed with
  | gone _ record => exact ensures_createStack hw hp hsubmissions record
  | @there old found present record =>
    rw [submit]
    split
    · next hblocked =>
      -- Whether the stack is in progress is not looked at, so all that is known of it is what was
      -- known before it was described.
      refine ensures_pure hw (.leftAlone hblocked record present fun hprogress => ?_)
      rw [hunseen hblocked] at found
      exact ⟨old, found, (horderly s.fqn old found).isInProgress_of_tick hprogress⟩
    · next hblocked =>
      split
      · exact ensures_pure hw (.failed none _)
      · next hsound =>
        split
        · exact ensures_pure hw (.waits hopen hsubmissions fun h => absurd h hblocked)
        · next hsettled =>
          exact ensures_updateStack hw hp hsubmissions record present
            (Bool.not_eq_true _ ▸ hsettled) hsound

omit hw hp in
/-- A stack for which a template has been submitted is at a stage, however it is described. -/
theorem stage_check (submitted : Change) (h : Submitted p w s template world) {before : Simulator}
    {described : Option Deployment}
    (hdescribed : Simulator.Described s.fqn before world.inner described) :
    Stage p w origin s world (some submitted) (check submitted described) := by
  cases hdescribed with
  | gone _ _ => exact .failed _ _
  | there _ _ record =>
    rw [check]
    split
    · exact .failed _ _
    · split
      · exact .failed _ _
      · split
        · next hcomplete => exact .complete h record hcomplete
        · exact .underWay rfl h

/-- From a stage at which the step is not done an attempt leads to another one. -/
theorem ensures_attempt (horderly : origin.Throughout Simulator.Orderly)
    (hopen : status.isDone = false) (h : Stands p w origin s change status world) :
    (attempt w s change status).run.Ensures (terms p s.fqn)
      (AfterAttempt (Stands p w origin s)) world := by
  rw [attempt]
  split
  · next hdisabled => exact fun _ _ henabled => by simp [henabled] at hdisabled
  · next henabled =>
    refine ensures_request_bind (asks_own rfl) fun later hlater => ?_
    obtain ⟨after, described, hrespond, hdescribed⟩ :=
      Simulator.respond_describe later.inner s.fqn
    refine ⟨_, .ok described, Provider.respond_recorded hrespond, ?_⟩
    have hstage := (h (by simpa using henabled)).rely hw hlater
    cases hstage with
    | waits _ nothing unseen =>
      refine ensures_submit hw hp hopen ?_ hdescribed horderly unseen
      exact (Recorded.submissions_cons_of_none later after rfl _).trans nothing
    | underWay _ submitted =>
      exact ensures_pure hw
        (stage_check _ (submitted.describe hp hw hrespond hdescribed) hdescribed)
    | leftAlone => cases hopen
    | unchanged => cases hopen
    | complete => cases hopen
    | failed => cases hopen

/-- So does a call. -/
theorem ensures_action (horderly : origin.Throughout Simulator.Orderly)
    (hopen : status.isDone = false) (h : Stands p w origin s change status world) :
    ((action w s).advance change status).Ensures (terms p s.fqn)
      (AfterCall (Stands p w origin s) change) world :=
  ensures_call (ensures_attempt hw hp horderly hopen h) (fun _ _ => rfl) (fun _ => rfl)
    (fun hrely h => h.rely hw hrely) fun change reason _ _ => .failed change reason

end

/-- What the steps of a plan that builds stacks keep to. -/
def contract (p : Plan (Option Change)) (hp : p.graph.Sound) (hfor : p.IsFor w (action w) none)
    (hw : w.lookups = .standard) (origin : Simulator)
    (horderly : origin.Throughout Simulator.Orderly) :
    Contract p Provider.simulated.recorded where
  terms := terms p
  before name world := world.inner.records.get? name = origin.records.get? name ∧
    world.submissions name = []
  between name change status world := ∃ s ∈ w.members, s.fqn = name ∧
    (∀ step, p.graph.get? name = some step → step.action = action w s) ∧
      Stands p w origin s change status world
  between_rely := by
    rintro name change status world later hkept ⟨s, hs, rfl, hstep, hstands⟩
    exact ⟨s, hs, rfl, hstep, hstands.rely hw hkept⟩
  before_ask := by
    rintro name other request world hne hasks ⟨hrecord, hnothing⟩
    exact ⟨(Simulator.respond_of_keepsTo hasks hne.symm world.inner).record.trans hrecord,
      (submissions_of_keepsTo hasks hne.symm world).trans hnothing⟩
  rely_ask := @kept_respond p
  begins := by
    rintro name step world hstep ⟨hrecord, hnothing⟩ -
    obtain ⟨s, hs, rfl, rfl⟩ := hfor name step hstep
    refine ⟨s, hs, rfl, fun step' hstep' => ?_, fun _ => .waits rfl hnothing fun _ => hrecord⟩
    obtain rfl := Option.some.inj (hstep.symm.trans hstep')
    rfl
  call := by
    rintro name step change status world hstep ⟨s, hs, rfl, haction, hstands⟩ hopen
    rw [haction step hstep]
    refine (ensures_action hw hp horderly hopen hstands).mono ?_
    rintro (message | ⟨change, outcome⟩) later h
    · exact ⟨s, hs, rfl, haction, h⟩
    · exact ⟨s, hs, rfl, haction, h⟩

end Build

end Rollout

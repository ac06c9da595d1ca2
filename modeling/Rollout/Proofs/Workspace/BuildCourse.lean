import Rollout.Proofs.Provider.Creation
import Rollout.Proofs.Workspace.BuildStages
import Rollout.Proofs.Workspace.Requirements

/-!
# The course of builds from nothing

Builds that begin without a stack, and are broken off and begun again, all head for the same: each
enabled stack is created with the template that is rendered for it when the stacks that it reads
have their outputs. No build ever submits another template, so it does not matter which of them
submits it, nor that a later one knows nothing of what the earlier ones did.

* `Workspace.furnished`: a provider at which all enabled stacks have their outputs.
* `Build.Goal`: the template that a stack of the plan is created with, told by its hash.
* `Build.Course`: what is true of a step between two calls, from any provider that is on course.
* `Build.ensures_attempt_onCourse` and `Build.courseContract`: every call stays on course.
-/

namespace Rollout

open Job Simulator

/-! ## Where builds head for -/

/-- All enabled stacks are there and have their outputs. -/
def Workspace.furnished (w : Workspace) (origin : Simulator) : Simulator where
  records := .ofList ((w.members.filter (·.enabled)).map fun s => (s.fqn, origin.created s.fqn ""))

namespace Build

variable {w : Workspace} {planned : List String} {origin world : Simulator} {s : Stack}

/-- The stack of a name is to be built, and the hash is that of the template that is rendered for it
when all enabled stacks have their outputs. -/
def Goal (w : Workspace) (planned : List String) (origin : Simulator) (fqn hash : String) : Prop :=
  ∃ s ∈ w.members, s.fqn = fqn ∧ fqn ∈ planned ∧ s.enabled = true ∧
    ∃ template, w.Renders s (w.furnished origin) template ∧ template.hash = hash

/-- No template can be rendered for the stack, not even when all enabled stacks have their
outputs. -/
def Hopeless (w : Workspace) (planned : List String) (origin : Simulator) (s : Stack) : Prop :=
  s.enabled = true ∧ ∀ hash, ¬ Goal w planned origin s.fqn hash

/-- The stack has been created as it should, unless it is disabled. -/
def Ready (w : Workspace) (planned : List String) (origin : Simulator) (s : Stack)
    (world : Simulator) : Prop :=
  s.enabled = true → ∃ hash, Goal w planned origin s.fqn hash ∧
    world.records.get? s.fqn = some (origin.created s.fqn hash)

section

variable (hnodup : (w.members.map (·.fqn)).Nodup)
include hnodup

/-- There is at most one such template. -/
theorem Goal.unique {fqn hash hash' : String} (h : Goal w planned origin fqn hash)
    (h' : Goal w planned origin fqn hash') : hash = hash' := by
  obtain ⟨s, hs, rfl, -, -, template, hrenders, rfl⟩ := h
  obtain ⟨s', hs', hfqn, -, -, template', hrenders', rfl⟩ := h'
  obtain rfl := List.inj_on_of_nodup_map hnodup hs hs' hfqn.symm
  unfold Workspace.Renders at hrenders hrenders'
  rw [hrenders] at hrenders'
  cases hrenders'
  rfl

/-- The furnished provider has the enabled stacks and no others. -/
theorem get?_furnished (hs : s ∈ w.members) :
    (w.furnished origin).records.get? s.fqn =
      if s.enabled then some (origin.created s.fqn "") else none := by
  have hkeys : (((w.members.filter (·.enabled)).map
      fun s => (s.fqn, origin.created s.fqn "")).map (·.1)).Nodup := by
    rw [List.map_map]
    exact hnodup.sublist (List.filter_sublist.map _)
  unfold Workspace.furnished
  split
  · next henabled =>
    rw [Table.get?_ofList_eq_some_iff hkeys]
    exact List.mem_map.2 ⟨s, List.mem_filter.2 ⟨hs, henabled⟩, rfl⟩
  · next hdisabled =>
    rw [Option.eq_none_iff_forall_ne_some]
    intro record hrecord
    rw [Table.get?_ofList_eq_some_iff hkeys] at hrecord
    obtain ⟨s', hs', heq⟩ := List.mem_map.1 hrecord
    obtain ⟨hmem, henabled⟩ := List.mem_filter.1 hs'
    obtain rfl := List.inj_on_of_nodup_map hnodup hmem hs (Prod.mk.inj heq).1
    exact hdisabled henabled

/-- On course, only enabled stacks of the plan are there. -/
theorem get?_of_disabled (hcourse : OnCourse (Goal w planned origin) origin world)
    (hs : s ∈ w.members) (hdisabled : s.enabled = false) : world.records.get? s.fqn = none := by
  rw [Option.eq_none_iff_forall_ne_some]
  intro record hrecord
  obtain ⟨hash, ⟨s', hs', hfqn, -, henabled, -⟩, -⟩ := hcourse.rising s.fqn record hrecord
  obtain rfl := List.inj_on_of_nodup_map hnodup hs' hs hfqn
  rw [hdisabled] at henabled
  cases henabled

/-- A stack that is ready has the outputs that it will always have. -/
theorem Ready.outputsOf (h : Ready w planned origin s world)
    (hcourse : OnCourse (Goal w planned origin) origin world) (hs : s ∈ w.members) :
    world.outputsOf s.fqn = (w.furnished origin).outputsOf s.fqn := by
  unfold Simulator.outputsOf
  rw [get?_furnished hnodup hs]
  cases henabled : s.enabled with
  | true =>
    obtain ⟨hash, -, hrecord⟩ := h henabled
    rw [hrecord]
    rfl
  | false =>
    rw [get?_of_disabled hnodup hcourse hs henabled]
    rfl

/-- Where all stacks of the plan are ready, the records are the same. -/
theorem records_eq_of_ready {world' : Simulator}
    (hcourse : OnCourse (Goal w planned origin) origin world)
    (hcourse' : OnCourse (Goal w planned origin) origin world')
    (hready : ∀ s ∈ w.members, s.fqn ∈ planned → Ready w planned origin s world)
    (hready' : ∀ s ∈ w.members, s.fqn ∈ planned → Ready w planned origin s world') :
    world'.records = world.records := by
  have hsame : ∀ fqn hash, Goal w planned origin fqn hash →
      world'.records.get? fqn = world.records.get? fqn := by
    rintro fqn hash ⟨s, hs, rfl, hplanned, henabled, -⟩
    obtain ⟨_, hgoal, hrecord⟩ := hready s hs hplanned henabled
    obtain ⟨_, hgoal', hrecord'⟩ := hready' s hs hplanned henabled
    rw [hrecord, hrecord', hgoal.unique hnodup hgoal']
  refine Table.ext_get? fun fqn => ?_
  cases hr : world.records.get? fqn with
  | some r =>
    obtain ⟨hash, hgoal, -⟩ := hcourse.rising fqn r hr
    rw [hsame fqn hash hgoal, hr]
  | none =>
    cases hr' : world'.records.get? fqn with
    | none => rfl
    | some r' =>
      obtain ⟨hash, hgoal, -⟩ := hcourse'.rising fqn r' hr'
      rw [hsame fqn hash hgoal, hr] at hr'
      cases hr'

end

/-! ## Terms -/

variable {p : Plan (Option Change)} {world later : Recorded Simulator} {change : Option Change}
  {status : Status}

/-- A step submits nothing but the template of its own stack. It relies on the stacks that it has to
do with being left alone, and on everyone staying on course. -/
def courseTerms (p : Plan (Option Change)) (w : Workspace) (origin : Simulator) (name : String) :
    Terms Provider.simulated.recorded where
  rely world later := Kept p name world later ∧
    (OnCourse (Goal w p.graph.dag.nodes origin) origin world.inner →
      OnCourse (Goal w p.graph.dag.nodes origin) origin later.inner)
  refl world := ⟨(terms p name).refl world, id⟩
  trans h h' := ⟨(terms p name).trans h.1 h'.1, h'.2 ∘ h.2⟩
  asks r := r.KeepsTo name (fun _ => True) ∧ r.Pursues (Goal w p.graph.dag.nodes origin)

/-- The provider is on course, and what the step depends on has the outputs that it will have. -/
structure Fair (p : Plan (Option Change)) (w : Workspace) (origin : Simulator) (name : String)
    (world : Recorded Simulator) : Prop where
  course : OnCourse (Goal w p.graph.dag.nodes origin) origin world.inner
  needs : ∀ m, p.graph.dag.Path name m →
    world.inner.outputsOf m = (w.furnished origin).outputsOf m

/-- What is true of a step between two calls. -/
structure Course (p : Plan (Option Change)) (w : Workspace) (origin : Simulator) (s : Stack)
    (change : Option Change) (status : Status) (world : Recorded Simulator) : Prop
    extends Fair p w origin s.fqn world where
  /-- What has been submitted is there. -/
  there : change ≠ none → ∃ r, world.inner.records.get? s.fqn = some r
  /-- The step ends well with the stack that should be there, and badly if there can be none. -/
  ended : status.isDone = true →
    status.isOk = true ∧ Ready w p.graph.dag.nodes origin s world.inner ∨
      status.isOk = false ∧ Hopeless w p.graph.dag.nodes origin s

theorem Fair.rely {name : String} (h : Fair p w origin name world)
    (hrely : (courseTerms p w origin name).rely world later) : Fair p w origin name later where
  course := hrely.2 h.course
  needs m hm := by
    unfold Simulator.outputsOf
    rw [hrely.1.needs m hm]
    exact h.needs m hm

theorem Course.rely (h : Course p w origin s change status world)
    (hrely : (courseTerms p w origin s.fqn).rely world later) :
    Course p w origin s change status later where
  toFair := h.toFair.rely hrely
  there hchange := by
    rw [hrely.1.own]
    exact h.there hchange
  ended hdone := by
    unfold Ready
    rw [hrely.1.own]
    exact h.ended hdone

/-- A step that ended well has its stack ready. -/
theorem Course.ready (h : Course p w origin s change status world) (hok : status.isOk = true) :
    Ready w p.graph.dag.nodes origin s world.inner := by
  rcases h.ended ((Status.isDone_iff status).2 (.inl hok)) with ⟨-, hready⟩ | ⟨hbad, -⟩
  · exact hready
  · rw [hok] at hbad
    cases hbad

/-- What an attempt ends with. If it went wrong there is no template, and whatever is said of that,
the step has failed. -/
def AfterCourse (p : Plan (Option Change)) (w : Workspace) (origin : Simulator) (s : Stack)
    (change : Option Change) :
    Except (Option String) (Except Error (Option Change × Status)) → Recorded Simulator → Prop
  | .ok (.ok (change', status)), world => Course p w origin s change' status world
  | .ok (.error _), world => ∀ reason, Course p w origin s change (.failed reason) world
  | .error _, _ => False

theorem ensures_pure_onCourse {change' : Option Change}
    (h : Course p w origin s change' status world) :
    (pure (change', status) : ExceptT Error Job (Option Change × Status)).run.Ensures
      (courseTerms p w origin s.fqn) (AfterCourse p w origin s change) world :=
  fun _ hlater => h.rely hlater

/-! ## Calls -/

section

variable (hnodup : (w.members.map (·.fqn)).Nodup) (hp : p.graph.Sound)
include hnodup hp

/-- A request about the stack of the step that submits nothing but its template. -/
theorem Fair.respond (h : Fair p w origin s.fqn world) {r : Request} (hr : r.fqn = s.fqn)
    (hpursues : r.Pursues (Goal w p.graph.dag.nodes origin)) {after : Simulator}
    {reply : Reply r.Answer}
    (hrespond : Provider.simulated.respond world.inner r = (after, reply)) :
    Fair p w origin s.fqn ⟨after, ⟨r, reply⟩ :: world.exchanges⟩ where
  course := by
    have hafter := h.course.respond (Goal.unique hnodup) hpursues
    rwa [hrespond] at hafter
  needs m hm := by
    show after.outputsOf m = _
    unfold Simulator.outputsOf
    rw [needs_respond hp hm hr hrespond]
    exact h.needs m hm

variable (hw : w.lookups = .standard) (hs : s ∈ w.members) (hnode : s.fqn ∈ p.graph.dag.nodes)
  (hreads : ∀ fqn, w.Reads s fqn → p.graph.dag.Path s.fqn fqn) (henabled : s.enabled = true)
include hw hs hnode hreads henabled

omit hp in
/-- A job goes on with the template of the stack. Without one, it fails for good. -/
theorem ensures_resolve_onCourse
    {f : RenderedTemplate → ExceptT Error Job (Option Change × Status)}
    (h : Fair p w origin s.fqn world)
    (there : change ≠ none → ∃ r, world.inner.records.get? s.fqn = some r)
    (hf : ∀ template later, (courseTerms p w origin s.fqn).rely world later →
      Goal w p.graph.dag.nodes origin s.fqn template.hash →
      (f template).run.Ensures (courseTerms p w origin s.fqn) (AfterCourse p w origin s change)
        later) :
    (w.resolve s >>= f).run.Ensures (courseTerms p w origin s.fqn)
      (AfterCourse p w origin s change) world := by
  have hresolve := (Workspace.readsOnly_resolve hw s).ensures (t := courseTerms p w origin s.fqn)
    (fun name => ⟨.inr ⟨name, trivial, rfl⟩, fun _ => nofun, fun _ => nofun⟩)
    (fun world name => ⟨kept_outputs s.fqn name world, fun hcourse =>
      ⟨⟨hcourse.steady.outputs, hcourse.steady.failures⟩, hcourse.rising⟩⟩) world
  -- What the stack reads will always be so, and so will the template.
  have hsame : ∀ result later, (courseTerms p w origin s.fqn).rely world later →
      ((∀ before after, (courseTerms p w origin s.fqn).rely before after → ∀ name, w.Reads s name →
        after.inner.records.get? name = before.inner.records.get? name) →
          result = ((w.resolve s).run.perform .simulated later.inner).2) →
      ((w.resolve s).run.perform .simulated (w.furnished origin)).2 = result := by
    intro result later hrely hrendered
    rw [hrendered fun _ _ hkept name hname => hkept.1.needs name (hreads name hname)]
    exact (Workspace.readsOnly_resolve hw s).perform_congr_outputs fun fqn hfqn =>
      ((h.rely hrely).needs fqn (hreads fqn hfqn)).symm
  refine ensures_bind_run hresolve (fun template mid hmid => ?_) (fun e mid hmid => ?_)
    fun message mid hmid => ?_
  · obtain ⟨hrely, -, hrendered⟩ := hmid
    exact hf template mid hrely
      ⟨s, hs, rfl, hnode, henabled, template, hsame _ mid hrely hrendered, rfl⟩
  · obtain ⟨hrely, -, hrendered⟩ := hmid
    have hnone := hsame _ mid hrely hrendered
    refine fun later hlater reason => ?_
    have hcourse : Course p w origin s change (.failed reason) mid :=
      { toFair := h.rely hrely
        there := fun hchange => by
          rw [hrely.1.own]
          exact there hchange
        ended := fun _ => .inr ⟨rfl, henabled, fun hash hgoal => by
          obtain ⟨s', hs', hfqn, -, -, template, hrenders, -⟩ := hgoal
          obtain rfl := List.inj_on_of_nodup_map hnodup hs' hs hfqn
          have hcontra := hnone.symm.trans hrenders
          cases hcontra⟩ }
    exact hcourse.rely hlater
  · obtain ⟨-, ⟨_, hvalue⟩, -⟩ := hmid
    cases hvalue

/-- A stack that is not there is created. -/
theorem ensures_createStack_onCourse (h : Fair p w origin s.fqn world)
    (hnone : world.inner.records.get? s.fqn = none) :
    (createStack w s).run.Ensures (courseTerms p w origin s.fqn) (AfterCourse p w origin s none)
      world := by
  refine ensures_resolve_onCourse hnodup hw hs hnode hreads henabled h (absurd rfl)
    fun template mid hmid hgoal => ?_
  have hpursues : (Request.create (submission s template)).Pursues
      (Goal w p.graph.dag.nodes origin) :=
    ⟨fun _ => nofun, fun _ hsubmission => by cases hsubmission; exact hgoal⟩
  refine ensures_request_bind ⟨.inl rfl, hpursues⟩ fun later hlater => ?_
  have hfair := (h.rely hmid).rely hlater
  have habsent : later.inner.records.get? s.fqn = none := by
    rw [hlater.1.own, hmid.1.own, hnone]
  obtain ⟨after, n, hrespond, hafter⟩ :=
    hfair.course.steady.respond_create (submission s template) habsent
  refine ⟨_, .ok (), Provider.respond_recorded hrespond, ensures_pure_onCourse ?_⟩
  exact
    { toFair := hfair.respond hnodup hp rfl hpursues hrespond
      there := fun _ => ⟨_, hafter⟩
      ended := nofun }

/-- A stack that has been created needs no update. -/
theorem ensures_updateStack_onCourse (h : Fair p w origin s.fqn world) {hash : String}
    (hcreated : world.inner.records.get? s.fqn = some (origin.created s.fqn hash))
    (hhash : Goal w p.graph.dag.nodes origin s.fqn hash) :
    (updateStack w s).run.Ensures (courseTerms p w origin s.fqn) (AfterCourse p w origin s none)
      world := by
  refine ensures_resolve_onCourse hnodup hw hs hnode hreads henabled h (absurd rfl)
    fun template mid hmid hgoal => ?_
  have hpursues : (Request.update (submission s template)).Pursues
      (Goal w p.graph.dag.nodes origin) :=
    ⟨fun _ => nofun, fun _ hsubmission => by cases hsubmission; exact hgoal⟩
  refine ensures_request_bind ⟨.inl rfl, hpursues⟩ fun later hlater => ?_
  have hfair := (h.rely hmid).rely hlater
  have hsame : later.inner.records.get? s.fqn = some (origin.created s.fqn hash) := by
    rw [hlater.1.own, hmid.1.own, hcreated]
  obtain ⟨after, hcases⟩ := Simulator.respond_update (submission s template) hsame rfl
  have htemplate : (origin.created s.fqn hash).stack.templateHash =
      some (submission s template).template.hash := congrArg some (hhash.unique hnodup hgoal)
  rw [if_pos htemplate] at hcases
  obtain ⟨hrespond, hafter⟩ := hcases
  refine ⟨_, .ok .noChange, Provider.respond_recorded hrespond, ensures_pure_onCourse ?_⟩
  exact
    { toFair := hfair.respond hnodup hp rfl hpursues hrespond
      there := absurd rfl
      ended := fun _ => .inl ⟨rfl, fun _ => ⟨hash, hhash, hafter⟩⟩ }

/-- Without memory of what was submitted, the step learns from the stack how far it is. -/
theorem ensures_submit_onCourse (hopen : s.isUpdateBlocked = false)
    (hstatus : status.isDone = false) (h : Fair p w origin s.fqn world) :
    (submit w s status ((world.inner.records.get? s.fqn).map (·.stack))).run.Ensures
      (courseTerms p w origin s.fqn) (AfterCourse p w origin s none) world := by
  cases hr : world.inner.records.get? s.fqn with
  | none =>
    exact ensures_createStack_onCourse hnodup hp hw hs hnode hreads henabled h hr
  | some r =>
    obtain ⟨hash, hhash, hrising⟩ := h.course.rising s.fqn r hr
    rw [Option.map_some, submit, hopen, if_neg Bool.false_ne_true]
    cases hrising with
    | creating n =>
      have hcourse : Course p w origin s none status world :=
        { toFair := h
          there := absurd rfl
          ended := fun hdone => by
            rw [hstatus] at hdone
            cases hdone }
      exact ensures_pure_onCourse hcourse
    | created =>
      exact ensures_updateStack_onCourse hnodup hp hw hs hnode hreads henabled h hr hhash

omit hnodup hp hw hs hnode hreads henabled in
/-- With that memory, it waits for the end of the creation. -/
theorem course_check (h : Fair p w origin s.fqn world) (submitted : Change) {r : Record}
    (hr : world.inner.records.get? s.fqn = some r) :
    Course p w origin s (some submitted) (check submitted (some r.stack)) world := by
  obtain ⟨hash, hhash, hrising⟩ := h.course.rising s.fqn r hr
  refine { toFair := h, there := fun _ => ⟨r, hr⟩, ended := ?_ }
  cases hrising with
  | creating n => exact nofun
  | created => exact fun _ => .inl ⟨rfl, fun _ => ⟨hash, hhash, hr⟩⟩

omit henabled in
/-- An attempt stays on course. -/
theorem ensures_attempt_onCourse (hopen : s.isUpdateBlocked = false)
    (hstatus : status.isDone = false) (h : Course p w origin s change status world) :
    (attempt w s change status).run.Ensures (courseTerms p w origin s.fqn)
      (AfterCourse p w origin s change) world := by
  rw [attempt]
  split
  · next hdisabled =>
    refine ensures_pure_onCourse ?_
    exact
      { toFair := h.toFair
        there := h.there
        ended := fun _ => .inl ⟨rfl, fun henabled => by simp [henabled] at hdisabled⟩ }
  · next henabled =>
    rw [Bool.not_eq_true, Bool.not_eq_false'] at henabled
    have hpursues := Request.pursues_describe (Goal w p.graph.dag.nodes origin) s.fqn
    refine ensures_request_bind ⟨.inl rfl, hpursues⟩ fun later hlater => ?_
    have hlater := h.rely hlater
    obtain ⟨after, described, hrespond, hdescribed, hafter⟩ :=
      hlater.course.respond_describe s.fqn
    have hfair := hlater.toFair.respond hnodup hp rfl hpursues hrespond
    refine ⟨_, .ok _, Provider.respond_recorded hrespond, ?_⟩
    cases change with
    | none =>
      subst hdescribed
      exact ensures_submit_onCourse hnodup hp hw hs hnode hreads henabled hopen hstatus hfair
    | some submitted =>
      obtain ⟨r, hr⟩ := hlater.there (Option.some_ne_none submitted)
      rw [hr, Option.map_some] at hafter
      rw [hafter, Option.map_some] at hdescribed
      subst hdescribed
      exact ensures_pure_onCourse (course_check hfair submitted hafter)

omit henabled in
/-- So does a call. -/
theorem ensures_action_onCourse (hopen : s.isUpdateBlocked = false)
    (hstatus : status.isDone = false) (h : Course p w origin s change status world) :
    ((action w s).advance change status).Ensures (courseTerms p w origin s.fqn)
      (AfterCall (Course p w origin s) change) world := by
  refine ensures_bind
    (ensures_attempt_onCourse hnodup hp hw hs hnode hreads hopen hstatus h)
    (fun result later hcourse => ?_) fun _ _ => False.elim
  match result with
  | .ok (change', status') => exact fun further hfurther => Course.rely hcourse hfurther
  | .error e => exact fun further hfurther => (hcourse _).rely hfurther

end

/-- What the steps of a plan keep to that builds stacks from a provider that is on course. -/
def courseContract (p : Plan (Option Change)) (hp : p.graph.Sound)
    (hfor : p.IsFor w (action w) none) (hw : w.lookups = .standard)
    (hnodup : (w.members.map (·.fqn)).Nodup) (hopen : ∀ s ∈ w.members, s.isUpdateBlocked = false)
    (hreads : ∀ s ∈ w.members, s.fqn ∈ p.graph.dag.nodes →
      ∀ fqn, w.Reads s fqn → p.graph.dag.Path s.fqn fqn) (origin : Simulator) :
    Contract p Provider.simulated.recorded where
  terms := courseTerms p w origin
  before _ world := OnCourse (Goal w p.graph.dag.nodes origin) origin world.inner
  between name change status world := ∃ s ∈ w.members, s.fqn = name ∧
    name ∈ p.graph.dag.nodes ∧ Course p w origin s change status world
  between_rely := by
    rintro name change status world later hrely ⟨s, hs, rfl, hnode, hcourse⟩
    exact ⟨s, hs, rfl, hnode, hcourse.rely hrely⟩
  before_ask _ hasks hbefore := hbefore.respond (Goal.unique hnodup) hasks.2
  rely_ask world hne hneeds hasks := ⟨kept_respond world hne hneeds hasks.1, fun hcourse =>
    hcourse.respond (Goal.unique hnodup) hasks.2⟩
  begins := by
    intro name step world hstep hbefore hdeps
    obtain ⟨s, hs, rfl, rfl⟩ := hfor name step hstep
    refine ⟨s, hs, rfl, (hp.mem_nodes_iff s.fqn).2 ⟨_, hstep⟩, ?_⟩
    refine { course := hbefore, needs := fun m hm => ?_, there := absurd rfl, ended := nofun }
    obtain ⟨_, status, hok, t, ht, rfl, -, hcourse⟩ := hdeps m hm
    exact (hcourse.ready hok).outputsOf hnodup hbefore ht
  call := by
    rintro name step change status world hstep ⟨s, hs, rfl, hnode, hcourse⟩ hstatus
    obtain ⟨t, ht, hfqn, rfl⟩ := hfor s.fqn step hstep
    obtain rfl := List.inj_on_of_nodup_map hnodup ht hs hfqn
    refine (ensures_action_onCourse hnodup hp hw hs hnode (hreads t hs hnode) (hopen t hs) hstatus
      hcourse).mono ?_
    rintro (message | ⟨change, outcome⟩) later h
    · exact ⟨t, hs, rfl, hnode, h⟩
    · exact ⟨t, hs, rfl, hnode, h⟩

end Build

end Rollout

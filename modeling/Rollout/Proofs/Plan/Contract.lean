import Rollout.Proofs.Plan.Outcome
import Rollout.Proofs.Plan.Visits

/-!
# Contracts of steps

The steps of a plan share the world of the provider. What is true of one step can be told without
the others if it is known how these may change the world meanwhile: each step relies on some changes
only, and asks only what the others can live with.

* `Terms` and `Job.Ensures`: what a job ends with while others change the world on some terms.
  `Job.ensures_bind` and the like: how such jobs are put together.
* `Contract`: for each step, what holds before its visit and between its calls, and on which terms.
* `Run.Keeps` and `Plan.Reaches.keeps`: every run of the plan keeps the contract, whatever the
  schedule. `Run.Keeps.of_ended` and `Plan.Ends.keeps`: what that says of a step that ended well.
* `Plan.Reaches.holds_of_asks`: what is true of the world throughout, if nothing that a step may ask
  changes it. `Plan.Reaches.holds_of_requests`: nothing that its action can come to ask.
-/

namespace Rollout

variable {μ σ α β : Type}

/-! ## Jobs among others -/

/-- The terms on which a job shares the world of a provider with others. -/
structure Terms (provider : Provider σ) where
  /-- What others may make of the world between two moves of the job. -/
  rely : σ → σ → Prop
  refl : ∀ world, rely world world
  trans : ∀ {world mid later}, rely world mid → rely mid later → rely world later
  /-- What the job may ask. -/
  asks : Request → Prop

namespace Job

variable {provider : Provider σ} {t : Terms provider}
  {post post' : Except (Option String) α → σ → Prop} {world later : σ}

/-- On some terms the job comes to an end of which something is true, with a value or with a crash
of the provider. -/
def Ensures (t : Terms provider) (post : Except (Option String) α → σ → Prop) :
    Job α → σ → Prop
  | done value, world => ∀ later, t.rely world later → post (.ok value) later
  | ask request next, world =>
    t.asks request ∧ ∀ later, t.rely world later →
      match provider.respond later request with
      | (after, .answer result) => (next result).Ensures t post after
      | (after, .crash message) => post (.error message) after
  | pause _ next, world => next.Ensures t post world
  | callOff next, world => next.Ensures t post world

/-- Others may have changed the world before. -/
theorem Ensures.rely {job : Job α} (h : job.Ensures t post world) (hrely : t.rely world later) :
    job.Ensures t post later := by
  induction job with
  | done value => exact fun further hfurther => h further (t.trans hrely hfurther)
  | ask request next _ => exact ⟨h.1, fun further hfurther => h.2 further (t.trans hrely hfurther)⟩
  | pause ms job ih => exact ih h
  | callOff job ih => exact ih h

theorem Ensures.mono {job : Job α} (h : job.Ensures t post world)
    (hpost : ∀ result later, post result later → post' result later) :
    job.Ensures t post' world := by
  induction job generalizing world with
  | done value => exact fun later hlater => hpost _ later (h later hlater)
  | ask request next ih =>
    refine ⟨h.1, fun later hlater => ?_⟩
    have hnext := h.2 later hlater
    generalize provider.respond later request = pair at hnext ⊢
    obtain ⟨after, result | message⟩ := pair
    · exact ih result hnext
    · exact hpost _ after hnext
  | pause ms job ih => exact ih h
  | callOff job ih => exact ih h

/-- What is true of the end of the first job, a crash excepted, lets the second one go on. -/
theorem ensures_bind {job : Job α} {f : α → Job β} {last : Except (Option String) β → σ → Prop}
    (h : job.Ensures t post world)
    (hok : ∀ value later, post (.ok value) later → (f value).Ensures t last later)
    (herror : ∀ message later, post (.error message) later → last (.error message) later) :
    (job.bind f).Ensures t last world := by
  induction job generalizing world with
  | done value => exact hok value world (h world (t.refl world))
  | ask request next ih =>
    refine ⟨h.1, fun later hlater => ?_⟩
    have hnext := h.2 later hlater
    generalize provider.respond later request = pair at hnext ⊢
    obtain ⟨after, result | message⟩ := pair
    · exact ih result hnext
    · exact herror message after hnext
  | pause ms job ih => exact ih h
  | callOff job ih => exact ih h

/-- A request that is answered, and what comes after. -/
theorem ensures_ask {request : Request} {next : Except Error request.Answer → Job α}
    (hasks : t.asks request)
    (hnext : ∀ later, t.rely world later → ∃ after result,
      provider.respond later request = (after, .answer result) ∧
        (next result).Ensures t post after) : (ask request next).Ensures t post world := by
  refine ⟨hasks, fun later hlater => ?_⟩
  obtain ⟨after, result, hrespond, hafter⟩ := hnext later hlater
  rw [hrespond]
  exact hafter

/-- A job ends somehow, if it may ask all that it can come to ask. -/
theorem ensures_of_asks {job : Job α} (hasks : ∀ request, job.Asks request → t.asks request)
    (hpost : ∀ result later, post result later) : job.Ensures t post world := by
  induction job generalizing world with
  | done value => exact fun later _ => hpost _ later
  | ask request next ih =>
    refine ⟨hasks request .now, fun later _ => ?_⟩
    generalize provider.respond later request = pair
    obtain ⟨after, result | message⟩ := pair
    · exact ih result fun other hother => hasks other (.later result hother)
    · exact hpost _ after
  | pause ms job ih => exact ih fun request hrequest => hasks request (.pause hrequest)
  | callOff job ih => exact ih fun request hrequest => hasks request (.callOff hrequest)

/-! ### Jobs that may fail -/

/-- The request is answered, and the job goes on with the answer unless it is an error. -/
theorem ensures_request_bind {request : Request} {f : request.Answer → ExceptT Error Job β}
    {last : Except (Option String) (Except Error β) → σ → Prop} (hasks : t.asks request)
    (hnext : ∀ later, t.rely world later → ∃ after result,
      provider.respond later request = (after, .answer result) ∧
        match result with
        | .ok value => (f value).run.Ensures t last after
        | .error e => (done (.error e)).Ensures t last after) :
    (Job.request request >>= f).run.Ensures t last world :=
  ensures_ask hasks fun later hlater => by
    obtain ⟨after, result, hrespond, hafter⟩ := hnext later hlater
    refine ⟨after, result, hrespond, ?_⟩
    cases result with
    | ok value => exact hafter
    | error e => exact hafter

/-- A job that goes on only if the one before did not fail. -/
theorem ensures_bind_run {job : ExceptT Error Job α} {f : α → ExceptT Error Job β}
    {mid : Except (Option String) (Except Error α) → σ → Prop}
    {last : Except (Option String) (Except Error β) → σ → Prop} (h : job.run.Ensures t mid world)
    (hok : ∀ value later, mid (.ok (.ok value)) later → (f value).run.Ensures t last later)
    (hfail : ∀ e later, mid (.ok (.error e)) later → (done (.error e)).Ensures t last later)
    (herror : ∀ message later, mid (.error message) later → last (.error message) later) :
    (job >>= f).run.Ensures t last world := by
  refine ensures_bind h (fun result later hmid => ?_) herror
  cases result with
  | ok value => exact hok value later hmid
  | error e => exact hfail e later hmid

end Job

/-! ## Contracts -/

/-- What is true when a call has ended, in terms of what is true between two calls. A crash leaves
what the action remembers. -/
def AfterCall (between : μ → Status → σ → Prop) (memo : μ) :
    Except (Option String) (μ × Outcome) → σ → Prop
  | .ok (memo, outcome), later => between memo outcome.status later
  | .error message, later => between memo (Outcome.crash message).status later

/-- What is true when an attempt has ended that did not go wrong. -/
def AfterAttempt (between : μ → Status → σ → Prop) :
    Except (Option String) (Except Error (μ × Status)) → σ → Prop
  | .ok (.ok (memo, status)), later => between memo status later
  | _, _ => True

/-- A call ends with what has come of an attempt. If that went wrong the step has failed, of which
nothing is asked. -/
theorem Job.ensures_call {provider : Provider σ} {t : Terms provider}
    {attempt : ExceptT Error Job (μ × Status)}
    {settle : Except Error (μ × Status) → Job (μ × Outcome)}
    {between : μ → Status → σ → Prop} {memo : μ} {world : σ}
    (h : attempt.run.Ensures t (AfterAttempt between) world)
    (hok : ∀ memo status, settle (.ok (memo, status)) = done (memo, .settled status))
    (herror : ∀ e, settle (.error e) = done (memo, .error e.message))
    (hrely : ∀ {memo status world later}, t.rely world later → between memo status world →
      between memo status later)
    (hfailed : ∀ memo reason world, between memo (.failed reason) world) :
    (attempt.run.bind settle).Ensures t (AfterCall between memo) world := by
  refine ensures_bind h (fun result later hattempted => ?_) fun message later _ =>
    hfailed memo _ later
  match result with
  | .ok (memo, status) =>
    rw [hok]
    exact fun further hfurther => hrely hfurther hattempted
  | .error e =>
    rw [herror]
    exact fun further _ => hfailed memo _ further

/-- What the steps of a plan can rely on, and what they do for that. -/
structure Contract (p : Plan μ) (provider : Provider σ) where
  /-- The terms on which a step shares the world with the others. -/
  terms : String → Terms provider
  /-- What is true as long as nobody has visited the step. -/
  before : String → σ → Prop
  /-- What is true of a step between two calls, with what its action remembers and where the step
  stands. -/
  between : String → μ → Status → σ → Prop
  /-- Others leave it true. -/
  between_rely : ∀ {name memo status world later}, (terms name).rely world later →
    between name memo status world → between name memo status later
  /-- What another step asks leaves true what is true before a visit. -/
  before_ask : ∀ {name other request world}, other ≠ name → (terms other).asks request →
    before name world → before name (provider.respond world request).1
  /-- A step can rely on what others ask, unless it depends on them. -/
  rely_ask : ∀ {name other request} world, other ≠ name → ¬ p.graph.dag.Path name other →
    (terms other).asks request → (terms name).rely world (provider.respond world request).1
  /-- A visit begins when all that the step depends on has ended well. -/
  begins : ∀ {name step world}, p.graph.get? name = some step → before name world →
    (∀ m, p.graph.dag.Path name m → ∃ memo status, status.isOk = true ∧
      between m memo status world) → between name step.memo step.status world
  /-- A call makes it true again. -/
  call : ∀ {name step memo status world}, p.graph.get? name = some step →
    between name memo status world → status.isDone = false →
    (step.action.advance memo status).Ensures (terms name) (AfterCall (between name) memo) world

namespace Run

variable {p : Plan μ} {provider : Provider σ} {c : Contract p provider} {r s : Run μ σ}
  {name : String} {step : Step μ}

/-- A step keeps its part of the contract, its visit having begun. -/
inductive Stands (c : Contract p provider) (r : Run μ σ) (name : String) : Prop where
  /-- It is between two calls. The run may have been called off since. -/
  | between (memo : μ) (status : Status) (idle : r.job? name = none)
      (remembers : r.memo? name = some memo)
      (stands : r.status? name = some status ∨
        r.cancelled = true ∧ r.status? name = some (.cancelled (some "interrupted")))
      (holds : c.between name memo status r.world)
      (waits : r.Waits name → r.status? name = some status ∧ status.isDone = false)
  /-- It is inside of a call. -/
  | inside {job : Job (μ × Outcome)} {memo : μ} (call : r.job? name = some job)
      (remembers : r.memo? name = some memo)
      (ensures : job.Ensures (c.terms name) (AfterCall (c.between name) memo) r.world)

namespace Stands

/-- Others have changed the world, but not the step nor its worker. -/
theorem congr (h : Stands c r name) (hrely : (c.terms name).rely r.world s.world)
    (hjob : s.job? name = r.job? name) (hstep : s.step? name = r.step? name)
    (hwaits : s.Waits name → r.Waits name) (hcancelled : r.cancelled = true → s.cancelled = true) :
    Stands c s name := by
  have hmemo : s.memo? name = r.memo? name := by rw [memo?, memo?, hstep]
  have hstatus : s.status? name = r.status? name := by rw [status?, status?, hstep]
  cases h with
  | between memo status idle remembers stands holds waits =>
    refine .between memo status (hjob.trans idle) (hmemo.trans remembers) ?_
      (c.between_rely hrely holds) fun h => ?_
    · rw [hstatus]
      exact stands.imp_right fun h => ⟨hcancelled h.1, h.2⟩
    · rw [hstatus]
      exact waits (hwaits h)
  | inside call remembers ensures =>
    exact .inside (hjob.trans call) (hmemo.trans remembers) (ensures.rely hrely)

/-- A step that is inside of no call is between two. -/
theorem of_idle (h : Stands c r name) (idle : r.job? name = none) :
    ∃ memo status, r.memo? name = some memo ∧ (r.status? name = some status ∨
        r.cancelled = true ∧ r.status? name = some (.cancelled (some "interrupted"))) ∧
      c.between name memo status r.world ∧
      (r.Waits name → r.status? name = some status ∧ status.isDone = false) := by
  cases h with
  | between memo status _ remembers stands holds waits =>
    exact ⟨memo, status, remembers, stands, holds, waits⟩
  | inside call _ _ =>
    rw [idle] at call
    cases call

/-- What is left of the call under way keeps to the terms of the step. -/
theorem of_call (h : Stands c r name) {job : Job (μ × Outcome)} (call : r.job? name = some job) :
    ∃ memo, r.memo? name = some memo ∧
      job.Ensures (c.terms name) (AfterCall (c.between name) memo) r.world := by
  cases h with
  | between _ _ idle _ _ _ _ =>
    rw [call] at idle
    cases idle
  | inside call' remembers ensures =>
    obtain rfl := Option.some.inj (call.symm.trans call')
    exact ⟨_, remembers, ensures⟩

/-- A turn of its worker changes the world by what the step may ask, if at all. -/
theorem asks_of_stride (h : Stands c r name) (turn : Stride provider r s name step) :
    s.world = r.world ∨
      ∃ request, (c.terms name).asks request ∧ s.world = (provider.respond r.world request).1 := by
  cases turn with
  | rests _ _ world _ _ _ => exact .inl world
  | begins _ _ _ world _ _ => exact .inl world
  | goesOn _ _ _ world _ _ => exact .inl world
  | asks before _ replied _ _ =>
    obtain ⟨_, -, hensures⟩ := h.of_call before
    exact .inr ⟨_, hensures.1, by rw [replied]⟩
  | returns _ _ world _ _ _ => exact .inl world
  | crashes before _ replied _ _ _ =>
    obtain ⟨_, -, hensures⟩ := h.of_call before
    exact .inr ⟨_, hensures.1, by rw [replied]⟩

/-- A worker that is inside of no call waits, or ends. -/
theorem rests (h : Stands c r name) (hs : r.step? name = some step)
    (hcancelled : r.cancelled = true → s.cancelled = true) (before : r.job? name = none)
    (after : s.job? name = none) (world : s.world = r.world) (memo : s.memo? name = some step.memo)
    (status : s.status? name = some step.status ∨
      r.cancelled = true ∧ s.status? name = some (.cancelled (some "interrupted")))
    (waits : s.Waits name →
      s.status? name = some step.status ∧ (step.status.isDone = false ∨ r.Waits name)) :
    Stands c s name := by
  obtain ⟨memo', status', hmemo, hstands, hholds, hwaits⟩ := h.of_idle before
  have hstatus := status?_eq_some (r := r) hs
  obtain rfl := Option.some.inj ((memo?_eq_some hs).symm.trans hmemo)
  refine .between step.memo status' after memo ?_ (world ▸ hholds) fun hwaiting => ?_
  · rcases status with same | ⟨hc, interrupted⟩
    · rw [same, ← hstatus]
      exact hstands.imp_right fun h => ⟨hcancelled h.1, h.2⟩
    · exact .inr ⟨hcancelled hc, interrupted⟩
  · obtain ⟨same, hopen | hwaited⟩ := waits hwaiting
    · rcases hstands with hstands | ⟨-, interrupted⟩
      · obtain rfl := Option.some.inj (hstatus.symm.trans hstands)
        exact ⟨same, hopen⟩
      · rw [Option.some.inj (hstatus.symm.trans interrupted)] at hopen
        cases hopen
    · obtain ⟨hstands, hopen⟩ := hwaits hwaited
      exact ⟨same.trans (hstatus.symm.trans hstands), hopen⟩

/-- A turn of its worker leaves the step where the contract wants it. -/
theorem stride (h : Stands c r name) (hs : r.step? name = some step) {first : Step μ}
    (hfirst : p.graph.get? name = some first) (haction : step.action = first.action)
    (hcancelled : r.cancelled = true → s.cancelled = true)
    (turn : Stride provider r s name step) : Stands c s name := by
  have hremembers := memo?_eq_some hs
  cases turn with
  | rests before after world memo status waits =>
    exact h.rests hs hcancelled before after world memo status waits
  | begins before waited after world memo status =>
    obtain ⟨memo', status', hmemo, -, hholds, hwaits⟩ := h.of_idle before
    obtain ⟨hstatus, hopen⟩ := hwaits waited
    obtain rfl := Option.some.inj (hremembers.symm.trans hmemo)
    obtain rfl := Option.some.inj ((status?_eq_some hs).symm.trans hstatus)
    refine .inside after memo ?_
    rw [world, haction]
    exact c.call hfirst hholds hopen
  | goesOn before after rest world memo status =>
    obtain ⟨memo', hmemo, hensures⟩ := h.of_call before
    obtain rfl := Option.some.inj (hremembers.symm.trans hmemo)
    refine .inside after memo ?_
    rw [world]
    rcases rest with rfl | ⟨ms, rfl⟩ | rfl
    · exact hensures
    · exact hensures
    · exact hensures
  | asks before after replied memo status =>
    obtain ⟨memo', hmemo, hensures⟩ := h.of_call before
    obtain rfl := Option.some.inj (hremembers.symm.trans hmemo)
    have hnext := hensures.2 r.world ((c.terms name).refl r.world)
    rw [replied] at hnext
    exact .inside after memo hnext
  | returns before after world remembers status waits =>
    obtain ⟨memo', -, hensures⟩ := h.of_call before
    have hholds := hensures r.world ((c.terms name).refl r.world)
    exact .between _ _ after remembers (.inl status) (world ▸ hholds) fun h => absurd h waits
  | crashes before after replied memo status waits =>
    obtain ⟨memo', hmemo, hensures⟩ := h.of_call before
    obtain rfl := Option.some.inj (hremembers.symm.trans hmemo)
    have hholds := hensures.2 r.world ((c.terms name).refl r.world)
    rw [replied] at hholds
    exact .between _ _ after memo (.inl status) hholds fun h => absurd h waits

end Stands

/-- A run keeps a contract. -/
structure Keeps (c : Contract p provider) (r : Run μ σ) : Prop where
  /-- Nobody has visited the other steps, which are as they were. -/
  before : ∀ name ∈ p.graph.dag.nodes, name ∉ r.walk.dispatched →
    c.before name r.world ∧ r.step? name = p.graph.get? name
  stands : ∀ name ∈ r.walk.dispatched, Stands c r name

namespace Keeps

/-- A step that is well, and inside of no call, is between two. -/
theorem of_isOk (h : r.Keeps c) (hn : name ∈ r.walk.dispatched) (hidle : r.job? name = none)
    {status : Status} (hstatus : r.status? name = some status) (hok : status.isOk = true) :
    ∃ memo, c.between name memo status r.world := by
  obtain ⟨memo, status', -, hstands, hholds, -⟩ := (h.stands name hn).of_idle hidle
  rcases hstands with hstands | ⟨-, hstands⟩
  · obtain rfl := Option.some.inj (hstatus.symm.trans hstands)
    exact ⟨memo, hholds⟩
  · rw [Option.some.inj (hstatus.symm.trans hstands)] at hok
    cases hok

/-- So it is with a step whose worker ended well. -/
theorem of_ended (h : r.Keeps c) (hr : r.Sound p) (hend : r.EndedWith name true) :
    ∃ memo status, status.isOk = true ∧ c.between name memo status r.world := by
  obtain ⟨status, hstatus, hok⟩ := hr.well name hend
  obtain ⟨hn, hidle⟩ := hend.idle hr
  obtain ⟨memo, hholds⟩ := h.of_isOk hn hidle hstatus hok
  exact ⟨memo, status, hok, hholds⟩

/-- Where a move changes the world, a step with a worker has asked for that, on its terms. -/
theorem asker (h : r.Keeps c) (hr : r.Sound p) {move : Move}
    (next : r.move? provider move = some s) :
    s.world = r.world ∨ ∃ name worker request, r.workers.get? name = some worker ∧
      (c.terms name).asks request ∧ s.world = (provider.respond r.world request).1 := by
  cases strode_of_move? (fun _ _ hw => hr.exists_step hw) next with
  | passed _ _ _ world _ => exact .inl world
  | turned working _ _ stride =>
    refine ((h.stands _ (hr.mem_dispatched working)).asks_of_stride stride).imp_right ?_
    rintro ⟨request, hasks, hworld⟩
    exact ⟨_, _, request, working, hasks, hworld⟩
  | settled _ after =>
    rw [after]
    exact .inl rfl

/-- The worker of a step goes on. -/
theorem turned (h : r.Keeps c) (hr : r.Sound p) {worker : Worker μ}
    (hw : r.workers.get? name = some worker) (hs : r.step? name = some step)
    (hframe : Frame name r s) (turn : Stride provider r s name step) : s.Keeps c := by
  have hn := hr.mem_dispatched hw
  have hstands := h.stands name hn
  have hworld := hstands.asks_of_stride turn
  have hcancelled := hframe.cancelled
  refine ⟨fun m hm hnot => ?_, fun m hm => ?_⟩
  · rw [hframe.walk] at hnot
    have hne : name ≠ m := fun heq => hnot (heq ▸ hn)
    obtain ⟨hbefore, hstep⟩ := h.before m hm hnot
    refine ⟨?_, (hframe.step_of_ne m hne.symm).trans hstep⟩
    rcases hworld with hsame | ⟨request, hasks, hworld⟩
    · rw [hsame]
      exact hbefore
    · rw [hworld]
      exact c.before_ask hne hasks hbefore
  · rw [hframe.walk] at hm
    by_cases hne : m = name
    · subst hne
      obtain ⟨first, hfirst, haction⟩ := hr.action m step hs
      exact hstands.stride hs hfirst haction hcancelled turn
    · have hworker := hframe.worker_of_ne m hne
      refine (h.stands m hm).congr ?_ (by rw [job?, job?, hworker]) (hframe.step_of_ne m hne)
        (fun hwaits => ?_) hcancelled
      · rcases hworld with hsame | ⟨request, hasks, hworld⟩
        · rw [hsame]
          exact (c.terms m).refl _
        · -- A step under visit depends on no step that still has a worker.
          rw [hworld]
          exact c.rely_ask r.world (Ne.symm hne) (fun hpath => hr.ne_of_path hw hm hpath rfl) hasks
      · rw [Waits, hworker] at hwaits
        exact hwaits

/-- New visits begin. All that their steps depend on has ended well. -/
theorem visits (h : r.Keeps c) (hs : s.Sound p)
    (hgrows : r.walk.dispatched ⊆ s.walk.dispatched) (hworld : s.world = r.world)
    (hstep : ∀ m, s.step? m = r.step? m) (hcancelled : s.cancelled = r.cancelled)
    (hjob : ∀ m, s.job? m = r.job? m ∧ (s.Waits m → r.Waits m))
    (hidle : ∀ m, m ∉ r.walk.dispatched → r.workers.get? m = none)
    (hended : ∀ m, s.EndedWith m true →
      ∃ memo status, status.isOk = true ∧ c.between m memo status r.world) : s.Keeps c := by
  refine ⟨fun m hm hnot => ?_, fun m hm => ?_⟩
  · rw [hworld, hstep]
    exact h.before m hm fun hold => hnot (hgrows hold)
  by_cases hold : m ∈ r.walk.dispatched
  · refine (h.stands m hold).congr ?_ (hjob m).1 (hstep m) (hjob m).2 (hcancelled ▸ id)
    rw [hworld]
    exact (c.terms m).refl _
  · have hnode : m ∈ p.graph.dag.nodes := hs.walkDag ▸ hs.walk.dispatched_subset hm
    obtain ⟨first, hfirst⟩ := (hs.graph.mem_nodes_iff m).1 (hs.dag ▸ hnode)
    obtain ⟨hbefore, hsame⟩ := h.before m hnode hold
    obtain ⟨hnone, hstill⟩ := idle_of_no_worker (hidle m hold)
    have hfound : p.graph.get? m = some first := hsame.symm.trans ((hstep m).symm.trans hfirst)
    refine .between _ _ ((hjob m).1.trans hnone) (memo?_eq_some hfirst)
      (.inl (status?_eq_some hfirst)) ?_ fun hw => absurd ((hjob m).2 hw) hstill
    rw [hworld]
    refine c.begins hfound hbefore fun n hn => ?_
    rw [← hs.walkDag] at hn
    exact hended n (.inr (hs.walk.completed_of_path hm hn))

/-- Every move keeps the contract. -/
theorem move (h : r.Keeps c) (hr : r.Sound p) {move : Move}
    (next : r.move? provider move = some s) : s.Keeps c := by
  cases strode_of_move? (fun _ _ hw => hr.exists_step hw) next with
  | passed plan walk workers world cancelled =>
    have hstep : ∀ m, s.step? m = r.step? m := fun m => by rw [step?, step?, plan]
    refine ⟨fun m hm hnot => ?_, fun m hm => ?_⟩
    · rw [world, hstep]
      exact h.before m hm (walk ▸ hnot)
    · refine (h.stands m (walk ▸ hm)).congr ?_ (by rw [job?, job?, workers]) (hstep m)
        (fun hwaits => ?_) cancelled
      · rw [world]
        exact (c.terms m).refl _
      · rw [Waits, workers] at hwaits
        exact hwaits
  | turned working found frame stride => exact h.turned hr working found frame stride
  | settled finished after =>
    have hended : ∀ m, s.EndedWith m true → ∃ memo status, status.isOk = true ∧
        c.between m memo status r.world := fun m hend =>
      h.of_ended hr ((hr.endedWith_settled finished after).1 hend)
    have hs := hr.settled finished after
    subst after
    refine h.visits hs ?_ rfl (fun _ => rfl) rfl (job?_settled finished _) (fun m hm => ?_) hended
    · obtain ⟨new, hnew⟩ := Walk.dispatched_prefix_settle r.walk _ _
      exact fun m hm => hnew ▸ List.mem_append_left new hm
    · by_contra hsome
      obtain ⟨worker, hw⟩ := Option.ne_none_iff_exists'.1 hsome
      exact hm (hr.mem_dispatched hw)

/-- A run without a visit keeps the contract. -/
theorem of_idle (hgraph : r.plan.graph = p.graph) (hdispatched : r.walk.dispatched = [])
    (hbefore : ∀ name ∈ p.graph.dag.nodes, c.before name r.world) : r.Keeps c where
  before name hname _ := ⟨hbefore name hname, by rw [step?, hgraph]⟩
  stands name hname := by
    rw [hdispatched] at hname
    exact absurd hname List.not_mem_nil

end Keeps

end Run

/-- A run that has begun keeps the contract, if nothing was wrong before. -/
theorem Plan.keeps_begin {p : Plan μ} (hp : p.graph.Sound) {provider : Provider σ}
    {c : Contract p provider} {walker : Walker} {world : σ} {cancelled : Bool} {start : Run μ σ}
    (h : p.begin walker world cancelled = .ok start)
    (hbefore : ∀ name ∈ p.graph.dag.nodes, c.before name world) : start.Keeps c := by
  obtain ⟨hstart, -, -, hnone⟩ := Plan.sound_begin hp h
  obtain ⟨r, hplan, hwalk, hworkers, rfl, -, -, rfl⟩ := Plan.begin_eq_ok h
  have hidle : r.Keeps c := .of_idle (by rw [hplan]) (by rw [hwalk]) hbefore
  split
  · exact hidle
  · next hsound =>
    rw [if_neg hsound] at hstart hnone
    refine hidle.visits hstart ?_ rfl (fun _ => rfl) rfl
      (Run.job?_staff { r with walk := r.walk.dispatch }) (fun m _ => ?_)
      fun m hend => absurd hend (hnone m true)
    · rw [hwalk]
      exact List.nil_subset _
    · rw [hworkers]
      rfl

/-- Every run of a plan keeps a contract whose part before the visits held at the beginning. -/
theorem Plan.Reaches.keeps {p : Plan μ} (hp : p.graph.Sound) {provider : Provider σ}
    (c : Contract p provider) {walker : Walker} {world : σ} {run : Run μ σ}
    (h : p.Reaches provider walker world run)
    (hbefore : ∀ name ∈ p.graph.dag.nodes, c.before name world) : run.Keeps c := by
  obtain ⟨cancelled, start, hbegin, hsteps⟩ := h
  obtain ⟨hsound, -⟩ := Plan.sound_begin hp hbegin
  induction hsteps with
  | refl => exact Plan.keeps_begin hp hbegin hbefore
  | tail move before next ih => exact ih.move (hsound.steps before) next

/-- What all requests on the terms of the steps leave true of the world is true in every run. -/
theorem Plan.Reaches.holds_of_asks {p : Plan μ} (hp : p.graph.Sound) {provider : Provider σ}
    (c : Contract p provider) {walker : Walker} {world : σ} {run : Run μ σ}
    (h : p.Reaches provider walker world run)
    (hbefore : ∀ name ∈ p.graph.dag.nodes, c.before name world) {P : σ → Prop}
    (hasks : ∀ {name request world}, (c.terms name).asks request → P world →
      P (provider.respond world request).1) (hworld : P world) : P run.world := by
  obtain ⟨cancelled, start, hbegin, hsteps⟩ := h
  obtain ⟨hsound, -⟩ := Plan.sound_begin hp hbegin
  induction hsteps with
  | refl =>
    obtain ⟨r, -, -, -, rfl, -, -, rfl⟩ := Plan.begin_eq_ok hbegin
    split
    · exact hworld
    · exact hworld
  | tail move before next ih =>
    have hkeeps := Plan.Reaches.keeps hp c ⟨cancelled, start, hbegin, before⟩ hbefore
    rcases hkeeps.asker (hsound.steps before) next with hsame | ⟨_, _, _, -, hask, hafter⟩
    · exact hsame ▸ ih
    · exact hafter ▸ hasks hask ih

/-- The contract of steps that promise nothing but what they ask. -/
def Plan.asking (p : Plan μ) (provider : Provider σ) (asks : Request → Prop)
    (h : ∀ name step, p.graph.get? name = some step → ∀ memo status request,
      (step.action.advance memo status).Asks request → asks request) : Contract p provider where
  terms _ := ⟨fun _ _ => True, fun _ => trivial, fun _ _ => trivial, asks⟩
  before _ _ := True
  between _ _ _ _ := True
  between_rely _ _ := trivial
  before_ask _ _ _ := trivial
  rely_ask _ _ _ _ := trivial
  begins _ _ _ := trivial
  call hstep _ _ := Job.ensures_of_asks (h _ _ hstep _ _) fun result _ => by
    cases result <;> trivial

/-- What all requests that the actions can come to ask leave true of the world is true in every
run. -/
theorem Plan.Reaches.holds_of_requests {p : Plan μ} (hp : p.graph.Sound) {provider : Provider σ}
    {walker : Walker} {world : σ} {run : Run μ σ} (h : p.Reaches provider walker world run)
    {P : σ → Prop}
    (hasks : ∀ name step, p.graph.get? name = some step → ∀ memo status request,
      (step.action.advance memo status).Asks request →
      ∀ world, P world → P (provider.respond world request).1)
    (hworld : P world) : P run.world :=
  h.holds_of_asks hp (p.asking provider _ hasks) (fun _ _ => trivial)
    (fun hask hbefore => hask _ hbefore) hworld

/-- At the end of a run, a step that is well is between two calls. -/
theorem Plan.Ends.keeps {p : Plan μ} (hp : p.graph.Sound) {provider : Provider σ}
    (c : Contract p provider) {walker : Walker} {world : σ} {run : Run μ σ} {report : PlanReport}
    (h : p.Ends provider walker world run report)
    (hbefore : ∀ name ∈ p.graph.dag.nodes, c.before name world) {name : String} {status : Status}
    (hstatus : run.status? name = some status) (hok : status.isOk = true) :
    ∃ memo, c.between name memo status run.world := by
  obtain ⟨last, hreaches, hdone, hfinish⟩ := h
  have hlast := hreaches.sound hp
  have hfinished := hlast.finished hfinish
  have hkeeps := hreaches.keeps hp c hbefore
  have hworld : run.world = last.world := by rw [← Run.world_finish last, hfinish]
  rw [hworld]
  have hnode : name ∈ last.walk.report.settled := by
    obtain ⟨step, hstep, -⟩ := Run.exists_step_of_status? hstatus
    have hperm := hlast.walk.settled_perm (hlast.saturated hfinished.broken) hdone.1 hlast.cap
    rw [hperm.mem_iff, hlast.walkDag, ← hlast.dag, ← hfinished.dag]
    exact (hfinished.graph.mem_nodes_iff name).2 ⟨step, hstep⟩
  rcases Walk.mem_settled_iff.1 hnode with hn | hn | hn
  · have hend : last.EndedWith name true := .inr hn
    obtain ⟨hdispatched, hidle⟩ := hend.idle hlast
    rw [Run.status?, hfinished.step?_of_completed hlast hn] at hstatus
    exact hkeeps.of_isOk hdispatched hidle hstatus hok
  · have hend : last.EndedWith name false := .inr hn
    obtain ⟨hdispatched, hidle⟩ := hend.idle hlast
    obtain ⟨before, hbefore, hrun, -⟩ := hfinished.exists_status_of_failed hlast hn
    obtain rfl := Option.some.inj (hstatus.symm.trans hrun)
    have hsame := Run.lastFailed_of_isOk hok
    rw [hsame] at hok ⊢
    exact hkeeps.of_isOk hdispatched hidle hbefore hok
  · obtain ⟨status', hrun, -, hnot⟩ := hfinished.exists_status_of_blocked hn
    obtain rfl := Option.some.inj (hstatus.symm.trans hrun)
    rw [hnot] at hok
    cases hok

/-- So are all steps after a success. -/
theorem Plan.Ends.keeps_of_success {p : Plan μ} (hp : p.graph.Sound) {provider : Provider σ}
    (c : Contract p provider) {walker : Walker} {world : σ} {run : Run μ σ} {report : PlanReport}
    (h : p.Ends provider walker world run report)
    (hbefore : ∀ name ∈ p.graph.dag.nodes, c.before name world)
    (hsuccess : report.outcome = .success) {name : String} (hname : name ∈ p.graph.dag.nodes) :
    ∃ memo status, run.status? name = some status ∧ status.isOk = true ∧
      c.between name memo status run.world := by
  obtain ⟨status, hstatus, hok⟩ := Run.stepIs_eq_true_iff.1 (h.isOk_of_success hp hsuccess hname)
  obtain ⟨memo, hholds⟩ := h.keeps hp c hbefore hstatus hok
  exact ⟨memo, status, hstatus, hok, hholds⟩

/-- A run is a success if by the contract no step ends but well, nobody called the run off, and the
sink broke down over nothing. -/
theorem Plan.Ends.success_of_contract {p : Plan μ} (hp : p.graph.Sound) {provider : Provider σ}
    (c : Contract p provider) {walker : Walker} {world : σ} {run : Run μ σ} {report : PlanReport}
    (h : p.Ends provider walker world run report)
    (hbefore : ∀ name ∈ p.graph.dag.nodes, c.before name world)
    (hwell : ∀ {name memo status world}, c.between name memo status world →
      status.isDone = true → status.isOk = true)
    (hquiet : ∀ journal, p.sink.breaksAt journal = false) (hcancelled : run.cancelled = false) :
    report.outcome = .success := by
  have hfinal := h.final hp
  obtain ⟨last, hreaches, -, hfinish⟩ := h
  have hlast := hreaches.sound hp
  have hfinished := hlast.finished hfinish
  have hkeeps := hreaches.keeps hp c hbefore
  have hnone : ∀ n, n ∉ last.walk.report.failed := fun n hn => by
    have hend : last.EndedWith n false := .inr hn
    obtain ⟨hdispatched, hidle⟩ := hend.idle hlast
    obtain ⟨_, status, -, hstands, hholds, -⟩ := (hkeeps.stands n hdispatched).of_idle hidle
    rcases hstands with hstands | ⟨hcalledOff, -⟩
    · obtain ⟨status', hstatus, ⟨hdone, hok⟩ | hbroke⟩ := hlast.unwell n hend
      · obtain rfl := Option.some.inj (hstands.symm.trans hstatus)
        rw [hwell hholds hdone] at hok
        cases hok
      · obtain ⟨_, _, _, _, hbreaks⟩ := hbroke
        rw [hlast.sink, hquiet] at hbreaks
        cases hbreaks
    · rw [← hfinished.cancelled, hcancelled] at hcalledOff
      cases hcalledOff
  rw [hfinished.report, hfinal.success_iff_walk, hfinished.walk]
  refine ⟨List.eq_nil_iff_forall_not_mem.2 fun n hn => ?_, fun n hn => absurd hn (hnone n)⟩
  obtain ⟨m, -, hm⟩ := (hlast.walk.blocked_iff n).1 hn
  exact hnone m hm

end Rollout

import Rollout.Proofs.Plan.Footprint
import Rollout.Proofs.Plan.Progress
import Rollout.Proofs.Plan.Visits

/-!
# Steps that keep apart

When each step of a plan asks about a stack of its own, and reads the outputs only of stacks whose
steps it depends on, the steps can be told one by one: each has come as far as it comes by itself,
in a world of its own that began as the common one did.

* `Plan.KeepsApart`: such plans.
* `Run.Apart`: the common world of a run, told by the worlds of its steps.
* `Run.Apart.turned`, `Run.Apart.settled`, `Run.Apart.move`: every move keeps that.
* `Plan.Reaches.apart`: so every run has it, whatever the schedule.
-/

namespace Rollout

variable {μ : Type}

/-- Every call asks about the stack of its step, and for outputs only of stacks whose steps this one
depends on. -/
def Plan.KeepsApart (p : Plan μ) : Prop :=
  ∀ name step, p.graph.get? name = some step → ∀ memo status,
    (step.action.advance memo status).KeepsTo name (p.graph.dag.Path name)

namespace Simulator

/-- The simulator with an empty log. -/
def silent (s : Simulator) : Simulator := { s with calls := [] }

theorem agreeAt_silent (fqn : String) (s : Simulator) : AgreeAt fqn s.silent s :=
  .of_calls fqn s []

/-- A request of a job that keeps to a stack leaves everything as it was that is known of others. -/
theorem respond_of_keepsTo {own fqn : String} {mayRead : String → Prop} {request : Request}
    (h : request.KeepsTo own mayRead) (hne : fqn ≠ own) (s : Simulator) :
    AgreeAt fqn (Provider.simulated.respond s request).1 s := by
  rcases h with rfl | ⟨name, -, rfl⟩
  · exact respond_elsewhere hne s
  · exact respond_outputs fqn name s

end Simulator

open Simulator

/-- Where one of some worlds has logged more calls, all of them together have. -/
theorem flatMap_calls_update {own : String → Simulator} {names : List String} (hnodup : names.Nodup)
    {name : String} (hn : name ∈ names) {world : Simulator} {l : List (Operation × String)}
    (hcalls : world.calls = l ++ (own name).calls) :
    (names.flatMap fun n => (Function.update own name world n).calls).Perm
      (l ++ names.flatMap fun n => (own n).calls) := by
  have hothers : (names.erase name).flatMap (fun n => (Function.update own name world n).calls) =
      (names.erase name).flatMap fun n => (own n).calls := by
    refine List.flatMap_congr fun n hn => ?_
    rw [Function.update_of_ne (hnodup.mem_erase_iff.1 hn).1]
  have hfirst := List.perm_cons_erase hn
  refine (hfirst.flatMap_right _).trans ?_
  rw [List.flatMap_cons, hothers, Function.update_self, hcalls, List.append_assoc]
  have hback := (hfirst.flatMap_right fun n => (own n).calls).symm.append_left l
  rwa [List.flatMap_cons] at hback

namespace Run

variable {p : Plan μ} {origin : Simulator} {r s : Run μ Simulator} {start own : String → Simulator}
  {name : String}

/-- The steps whose visits have begun have come as far as they come by themselves. `start` are the
worlds in which they began, and `own` are the ones that they have come to. -/
structure Apart (p : Plan μ) (origin : Simulator) (r : Run μ Simulator)
    (start own : String → Simulator) : Prop where
  progress : ∀ name ∈ r.walk.dispatched, ∀ first, p.graph.get? name = some first →
    Progress .simulated r name first (start name) (own name)
  keeps : ∀ name job, r.job? name = some job → job.KeepsTo name (p.graph.dag.Path name)
  /-- The world of a step began with an empty log. -/
  silent : ∀ name ∈ r.walk.dispatched, (start name).calls = []
  /-- It began with the stack of the step as the run did. -/
  begun : ∀ name ∈ r.walk.dispatched, AgreeAt name (start name) origin
  /-- Of this stack as much is known in the world of the step as in the common one. -/
  stands : ∀ name ∈ r.walk.dispatched, AgreeAt name (own name) r.world
  /-- So it is with all stacks whose outputs the step may read, and so it was from the first. -/
  needs : ∀ name ∈ r.walk.dispatched, ∀ m, p.graph.dag.Path name m →
    AgreeAt m (start name) r.world ∧ AgreeAt m (own name) r.world
  /-- All other stacks are as they were, and so are their steps. -/
  untouched : ∀ name, name ∉ r.walk.dispatched →
    AgreeAt name r.world origin ∧ r.step? name = p.graph.get? name
  /-- The calls that the steps have made are those that were logged. -/
  calls : r.world.calls.Perm
    ((r.walk.dispatched.flatMap fun name => (own name).calls) ++ origin.calls)
  /-- Marks were taken off, and none was put on. -/
  failures : ∃ left : String × Operation → Bool, r.world.failures = origin.failures.filter left

namespace Apart

/-! ## Turns -/

/-- What is left of a call after a turn keeps to the stack of the step as before. -/
theorem keeps_of_stride (h : Apart p origin r start own) (hp : p.KeepsApart) (hr : r.Sound p)
    {step : Step μ} (hs : r.step? name = some step)
    (turn : Stride .simulated r s name step) {job : Job (μ × Outcome)}
    (hjob : s.job? name = some job) : job.KeepsTo name (p.graph.dag.Path name) := by
  cases turn with
  | rests _ after _ _ _ _ =>
    rw [after] at hjob
    cases hjob
  | begins _ _ after _ _ _ =>
    rw [after] at hjob
    cases hjob
    obtain ⟨first, hfirst, haction⟩ := hr.action name step hs
    rw [haction]
    exact hp name first hfirst step.memo step.status
  | goesOn before after rest _ _ _ =>
    rw [after] at hjob
    cases hjob
    have hkeeps := h.keeps name _ before
    rcases rest with rfl | ⟨ms, rfl⟩ | rfl
    · exact hkeeps
    · exact hkeeps.of_pause
    · exact hkeeps.of_callOff
  | asks before after _ _ _ =>
    rw [after] at hjob
    cases hjob
    exact (h.keeps name _ before).of_ask.2 _
  | returns _ after _ _ _ _ =>
    rw [after] at hjob
    cases hjob
  | crashes _ after _ _ _ _ =>
    rw [after] at hjob
    cases hjob

/-- Of the stack that a request is about as much is known in the common world as in the world of the
step. -/
theorem agreeAt_request (h : Apart p origin r start own) (hn : name ∈ r.walk.dispatched)
    {request : Request} {next : Except Error request.Answer → Job (μ × Outcome)}
    (hjob : r.job? name = some (.ask request next)) :
    AgreeAt request.fqn (own name) r.world := by
  rcases (h.keeps name _ hjob).of_ask.1 with hown | ⟨m, hm, rfl⟩
  · exact hown ▸ h.stands name hn
  · exact (h.needs name hn m hm).2

/-- The worker of a step goes on, and `world` is the world of the step from then on. The worlds of
the other steps stay as they are, since nothing is changed that these have to do with. -/
theorem updated (h : Apart p origin r start own) (hp : p.KeepsApart) (hr : r.Sound p)
    {worker : Worker μ} {step : Step μ} (hw : r.workers.get? name = some worker)
    (hs : r.step? name = some step) (hframe : Frame name r s)
    (turn : Stride .simulated r s name step) {world : Simulator} {l : List (Operation × String)}
    (hprogress : ∀ first, p.graph.get? name = some first →
      Progress .simulated s name first (start name) world)
    (haway : ∀ m, m ≠ name → AgreeAt m s.world r.world) (hstands : AgreeAt name world s.world)
    (hneeds : ∀ m, p.graph.dag.Path name m → AgreeAt m world (own name))
    (hcalls : s.world.calls = l ++ r.world.calls) (hown : world.calls = l ++ (own name).calls)
    (hfailures : ∃ left : String × Operation → Bool,
      s.world.failures = r.world.failures.filter left) :
    Apart p origin s start (Function.update own name world) := by
  have hn := hr.mem_dispatched hw
  have hother : ∀ m, m ≠ name → Function.update own name world m = own m := fun m hm =>
    Function.update_of_ne hm _ _
  exact
    { progress := fun m hm first hfirst => by
        rw [hframe.walk] at hm
        by_cases hne : m = name
        · subst hne
          rw [Function.update_self]
          exact hprogress first hfirst
        · have hworker := hframe.worker_of_ne m hne
          rw [hother m hne]
          refine (h.progress m hm first hfirst).congr (by rw [job?, job?, hworker])
            (hframe.step_of_ne m hne) (fun hwaits => ?_) hframe.cancelled
          rw [Waits, hworker] at hwaits
          exact hwaits
      keeps := fun m job hjob => by
        by_cases hm : m = name
        · subst hm
          exact h.keeps_of_stride hp hr hs turn hjob
        · rw [job?, hframe.worker_of_ne m hm] at hjob
          exact h.keeps m job hjob
      silent := hframe.walk ▸ h.silent
      begun := hframe.walk ▸ h.begun
      stands := fun m hm => by
        rw [hframe.walk] at hm
        by_cases hne : m = name
        · subst hne
          rw [Function.update_self]
          exact hstands
        · rw [hother m hne]
          exact (h.stands m hm).trans (haway m hne).symm
      needs := fun m hm read hread => by
        rw [hframe.walk] at hm
        -- What a step reads is not changed any more: it belongs to a step that is completed.
        have hback := (haway read (hr.ne_of_path hw hm hread)).symm
        obtain ⟨hstart, hnow⟩ := h.needs m hm read hread
        refine ⟨hstart.trans hback, AgreeAt.trans ?_ hback⟩
        by_cases hne : m = name
        · subst hne
          rw [Function.update_self]
          exact (hneeds read hread).trans hnow
        · rw [hother m hne]
          exact hnow
      untouched := fun m hm => by
        rw [hframe.walk] at hm
        have hne : m ≠ name := by
          rintro rfl
          exact hm hn
        rw [hframe.step_of_ne m hne]
        exact ⟨(haway m hne).trans (h.untouched m hm).1, (h.untouched m hm).2⟩
      calls := by
        rw [hframe.walk, hcalls]
        refine (h.calls.append_left l).trans ?_
        rw [← List.append_assoc]
        exact ((flatMap_calls_update hr.walk.nodup_dispatched hn hown).symm).append_right _
      failures := by
        obtain ⟨left, hleft⟩ := h.failures
        obtain ⟨stays, hstays⟩ := hfailures
        refine ⟨fun mark => stays mark && left mark, ?_⟩
        rw [hstays, hleft, List.filter_filter] }

/-- The worker of a step asks the provider, or does anything else. -/
theorem turned (h : Apart p origin r start own) (hp : p.KeepsApart) (hr : r.Sound p)
    {worker : Worker μ} {step : Step μ} (hw : r.workers.get? name = some worker)
    (hs : r.step? name = some step) (hframe : Frame name r s)
    (turn : Stride .simulated r s name step) : ∃ own', Apart p origin s start own' := by
  have hn := hr.mem_dispatched hw
  obtain ⟨first, hfirst, haction⟩ := hr.action name step hs
  have hstands := h.stands name hn
  rcases (h.progress name hn first hfirst).stride hs haction hframe.cancelled turn
      (fun request next hjob => respond_reply (h.agreeAt_request hn hjob)) with
    ⟨hworld, hprogress⟩ | ⟨request, next, hjob, hworld, hprogress⟩
  · refine ⟨_, h.updated (l := []) hp hr hw hs hframe turn ?_ ?_ (hworld ▸ hstands)
      (fun m _ => .refl m _) (by rw [hworld]; rfl) rfl ⟨fun _ => true, by rw [hworld]; simp⟩⟩
    · intro first' hfirst'
      obtain rfl := Option.some.inj (hfirst.symm.trans hfirst')
      exact hprogress
    · exact fun m _ => hworld ▸ .refl m _
  · have hrequest := (h.keeps name _ hjob).of_ask.1
    refine ⟨_, h.updated (l := [(request.operation, request.fqn)]) hp hr hw hs hframe turn ?_ ?_ ?_
      ?_ (hworld ▸ calls_respond r.world request) (calls_respond (own name) request)
      (hworld ▸ failures_respond r.world request)⟩
    · intro first' hfirst'
      obtain rfl := Option.some.inj (hfirst.symm.trans hfirst')
      exact hprogress
    · exact fun m hm => hworld ▸ respond_of_keepsTo hrequest hm r.world
    · exact hworld ▸ respond_agreeAt hstands (h.agreeAt_request hn hjob)
    · exact fun m hm => respond_of_keepsTo hrequest (hr.ne_of_path hw hn hm) (own name)

/-! ## New visits -/

/-- The visits that begin do so in the world as it is. -/
theorem visits (h : Apart p origin r start own) {new : List String}
    (hnew : s.walk.dispatched = r.walk.dispatched ++ new) (hnodup : s.walk.dispatched.Nodup)
    (hworld : s.world = r.world) (hstep : ∀ m, s.step? m = r.step? m)
    (hcancelled : s.cancelled = r.cancelled) (hjob : ∀ m, s.job? m = r.job? m)
    (hwaits : ∀ m, s.Waits m → r.Waits m)
    (hidle : ∀ m, m ∉ r.walk.dispatched → r.job? m = none ∧ ¬ r.Waits m) :
    ∃ start' own', Apart p origin s start' own' := by
  have hfresh : ∀ m ∈ new, m ∉ r.walk.dispatched := fun m hm hold =>
    List.disjoint_of_nodup_append (hnew ▸ hnodup) hold hm
  -- The visits that had begun keep their worlds.
  let begins (worlds : String → Simulator) : String → Simulator := fun m =>
    if m ∈ r.walk.dispatched then worlds m else r.world.silent
  have hold : ∀ worlds, ∀ m ∈ r.walk.dispatched, begins worlds m = worlds m :=
    fun worlds m hm => if_pos hm
  have hbegins : ∀ worlds, ∀ m ∈ new, begins worlds m = r.world.silent :=
    fun worlds m hm => if_neg (hfresh m hm)
  have hcases : ∀ m ∈ s.walk.dispatched, m ∈ r.walk.dispatched ∨ m ∈ new := fun m hm =>
    List.mem_append.1 (hnew ▸ hm)
  refine ⟨begins start, begins own, ?_⟩
  exact
    { progress := fun m hm first hfirst => by
        rcases hcases m hm with hm | hm
        · rw [hold _ m hm, hold _ m hm]
          exact (h.progress m hm first hfirst).congr (hjob m) (hstep m) (hwaits m)
            fun hc => hcancelled.trans hc
        · rw [hbegins _ m hm, hbegins _ m hm]
          obtain ⟨hnone, hstill⟩ := hidle m (hfresh m hm)
          refine .fresh ((hjob m).trans hnone) ?_ (fun hw => hstill (hwaits m hw)) _
          rw [hstep, (h.untouched m (hfresh m hm)).2, hfirst]
      keeps := fun m job hm => h.keeps m job ((hjob m).symm.trans hm)
      silent := fun m hm => by
        rcases hcases m hm with hm | hm
        · rw [hold _ m hm]
          exact h.silent m hm
        · rw [hbegins _ m hm]
          rfl
      begun := fun m hm => by
        rcases hcases m hm with hm | hm
        · rw [hold _ m hm]
          exact h.begun m hm
        · rw [hbegins _ m hm]
          exact (agreeAt_silent m r.world).trans (h.untouched m (hfresh m hm)).1
      stands := fun m hm => by
        rw [hworld]
        rcases hcases m hm with hm | hm
        · rw [hold _ m hm]
          exact h.stands m hm
        · rw [hbegins _ m hm]
          exact agreeAt_silent m r.world
      needs := fun m hm read hread => by
        rw [hworld]
        rcases hcases m hm with hm | hm
        · rw [hold _ m hm, hold _ m hm]
          exact h.needs m hm read hread
        · rw [hbegins _ m hm, hbegins _ m hm]
          exact ⟨agreeAt_silent read r.world, agreeAt_silent read r.world⟩
      untouched := fun m hm => by
        rw [hworld, hstep]
        exact h.untouched m fun hm' => hm (hnew ▸ List.mem_append_left _ hm')
      calls := by
        have hquiet : new.flatMap (fun m => (begins own m).calls) = [] :=
          List.flatMap_eq_nil_iff.2 fun m hm => by rw [hbegins _ m hm]; rfl
        have hkept : r.walk.dispatched.flatMap (fun m => (begins own m).calls) =
            r.walk.dispatched.flatMap fun m => (own m).calls :=
          List.flatMap_congr fun m hm => by rw [hold _ m hm]
        rw [hworld, hnew, List.flatMap_append, hquiet, hkept, List.append_nil]
        exact h.calls
      failures := hworld ▸ h.failures }

/-- The walk takes the end of a worker, and new visits begin. -/
theorem settled (h : Apart p origin r start own) (hr : r.Sound p) (hs : s.Sound p) {attempt : Nat}
    {ok : Bool} (hw : r.workers.get? name = some ⟨attempt, .finished ok⟩)
    (hafter : s = staff { r with
      workers := r.workers.erase name, walk := r.walk.settle name ok }) :
    ∃ start' own', Apart p origin s start' own' := by
  obtain ⟨new, hnew⟩ := Walk.dispatched_prefix_settle r.walk name ok
  have hwalk : s.walk = r.walk.settle name ok := by rw [hafter]; rfl
  refine h.visits (by rw [hwalk, hnew]) hs.walk.nodup_dispatched (by rw [hafter]; rfl)
    (fun m => by rw [hafter]; rfl) (by rw [hafter]; rfl)
    (fun m => by rw [hafter]; exact (job?_settled hw _ m).1)
    (fun m hm => (job?_settled hw _ m).2 (by rwa [hafter] at hm)) fun m hm => ?_
  have hnone : r.workers.get? m = none := by
    cases hw' : r.workers.get? m with
    | none => rfl
    | some worker => exact absurd (hr.mem_dispatched hw') hm
  exact idle_of_no_worker hnone

/-- Every move keeps the steps apart. -/
theorem move (h : Apart p origin r start own) (hp : p.KeepsApart) (hr : r.Sound p) {move : Move}
    (next : r.move? .simulated move = some s) : ∃ start' own', Apart p origin s start' own' := by
  cases strode_of_move? (fun _ _ hw => hr.exists_step hw) next with
  | passed plan walk workers world cancelled =>
    refine ⟨start, own, ?_⟩
    have hjob : ∀ m, s.job? m = r.job? m := fun m => by rw [job?, job?, workers]
    have hstep : ∀ m, s.step? m = r.step? m := fun m => by rw [step?, step?, plan]
    exact
      { progress := fun m hm first hfirst => by
          rw [walk] at hm
          refine (h.progress m hm first hfirst).congr (hjob m) (hstep m) (fun hwaits => ?_)
            cancelled
          rw [Waits, workers] at hwaits
          exact hwaits
        keeps := fun m job hm => h.keeps m job ((hjob m).symm.trans hm)
        silent := walk ▸ h.silent
        begun := walk ▸ h.begun
        stands := walk ▸ world ▸ h.stands
        needs := walk ▸ world ▸ h.needs
        untouched := fun m hm => by
          rw [world, hstep]
          exact h.untouched m (walk ▸ hm)
        calls := walk ▸ world ▸ h.calls
        failures := world ▸ h.failures }
  | turned working found frame stride =>
    obtain ⟨own', h'⟩ := h.turned hp hr working found frame stride
    exact ⟨start, own', h'⟩
  | settled finished after => exact h.settled hr (hr.move next) finished after

/-- A run without a visit. -/
theorem of_idle (hgraph : r.plan.graph = p.graph) (hdispatched : r.walk.dispatched = [])
    (hworkers : r.workers = .empty) (worlds : String → Simulator) :
    Apart p r.world r worlds worlds := by
  have hnone : ∀ {m}, m ∉ r.walk.dispatched := by
    rw [hdispatched]
    exact List.not_mem_nil
  exact
    { progress := fun m hm => absurd hm hnone
      keeps := fun m job hm => by
        rw [job?, hworkers] at hm
        cases hm
      silent := fun m hm => absurd hm hnone
      begun := fun m hm => absurd hm hnone
      stands := fun m hm => absurd hm hnone
      needs := fun m hm => absurd hm hnone
      untouched := fun m _ => ⟨.refl m r.world, by rw [step?, hgraph]⟩
      calls := by
        rw [hdispatched]
        exact List.Perm.refl _
      failures := ⟨fun _ => true, by simp⟩ }

end Apart

end Run

/-- When a run begins its steps are apart. -/
theorem Plan.apart_begin {p : Plan μ} (hp : p.graph.Sound) {walker : Walker} {world : Simulator}
    {cancelled : Bool} {first : Run μ Simulator} (h : p.begin walker world cancelled = .ok first) :
    ∃ start own, Run.Apart p world first start own := by
  have hfirst := (Plan.sound_begin hp h).1
  obtain ⟨r, hplan, hwalk, hworkers, rfl, -, -, rfl⟩ := Plan.begin_eq_ok h
  have hidle := Run.Apart.of_idle (p := p) (r := r) (by rw [hplan]) (by rw [hwalk]) hworkers
    fun _ => r.world
  split
  · exact ⟨_, _, hidle⟩
  · next hsound =>
    rw [if_neg hsound] at hfirst
    have hnone : r.walk.dispatched = [] := by rw [hwalk]
    have hjob := Run.job?_staff { r with walk := r.walk.dispatch }
    have hnew : r.launch.walk.dispatched = r.walk.dispatched ++ r.walk.dispatch.dispatched := by
      rw [hnone]
      rfl
    refine hidle.visits hnew hfirst.walk.nodup_dispatched rfl (fun m => rfl) rfl
      (fun m => (hjob m).1) (fun m => (hjob m).2) fun m _ => Run.idle_of_no_worker ?_
    rw [hworkers]
    rfl

/-- Whatever the schedule, the steps of a plan that keeps its steps apart can be told one by one. -/
theorem Plan.Reaches.apart {p : Plan μ} (hp : p.graph.Sound) (hapart : p.KeepsApart)
    {walker : Walker} {world : Simulator} {run : Run μ Simulator}
    (h : p.Reaches .simulated walker world run) :
    ∃ start own, Run.Apart p world run start own := by
  obtain ⟨cancelled, first, hbegin, hsteps⟩ := h
  obtain ⟨hsound, -⟩ := Plan.sound_begin hp hbegin
  induction hsteps with
  | refl => exact Plan.apart_begin hp hbegin
  | tail move before next ih =>
    obtain ⟨start, own, h⟩ := ih
    exact h.move hapart (hsound.steps before) next

end Rollout

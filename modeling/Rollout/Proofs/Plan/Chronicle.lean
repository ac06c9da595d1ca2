import Rollout.Proofs.Plan.Quiet
import Rollout.Proofs.Plan.Recording
import Rollout.Proofs.Plan.Transcript
import Rollout.Proofs.Plan.Visits

/-!
# The calls of a run

Every run calls the actions of its steps one after another, as if nobody else were there: a step
stands where its last call has left it, or where the call under way was begun.

* `Run.write`: what a turn of a worker adds to the calls of its step, told by the call that is under
  way before and after it and by what the provider was asked meanwhile.
* `Run.Writes` and `Plan.Chronicle`: a run with the calls of each step in its course. Every run has
  them, by `Plan.Reaches.exists_chronicle`.
* `Run.Acted` and `Run.Sound.acted`: every move, with the step whose worker makes it.
* `Run.Called`: the calls are calls of the action of the step, as `Action.Ran` and `Action.Made`
  tell them. `Plan.Chronicle.called`: so it is in every run.
* `Plan.Reaches.exists_call`: a call under way was given what the calls before it have left.
-/

namespace Rollout

variable {μ σ : Type}

namespace Run

/-! ## Writing the calls down -/

/-- What the provider was asked between two runs, the last exchange first. -/
def asked (r s : Run μ (Recorded σ)) : List Exchange :=
  s.world.exchanges.take (s.world.exchanges.length - r.world.exchanges.length)

/-- The calls of a step, the last one first, after a turn of its worker from one run to the next: a
call has begun, or the last one has gone on, or it has ended. -/
def write (r s : Run μ (Recorded σ)) (name : String) (calls : List CallRecord) :
    List CallRecord :=
  match r.job? name, s.job? name with
  | none, none => calls
  | none, some _ => { given := (r.status? name).getD .pending } :: calls
  | some _, some _ =>
    calls.modifyHead fun call => { call with exchanges := r.asked s ++ call.exchanges }
  | some _, none =>
    calls.modifyHead fun call =>
      { call with exchanges := r.asked s ++ call.exchanges, result := s.status? name }

end Run

/-- The step whose worker makes a move. -/
def Move.mover? : Move → Option String
  | .work name | .stop name => some name
  | _ => none

/-- A run goes on by some moves, and the calls of each step are written down. -/
inductive Run.Writes (provider : Provider σ) :
    Run μ (Recorded σ) → (String → List CallRecord) →
      Run μ (Recorded σ) → (String → List CallRecord) → Prop where
  | refl (r : Run μ (Recorded σ)) (history : String → List CallRecord) :
      Writes provider r history r history
  | tail {r s t : Run μ (Recorded σ)} {first history : String → List CallRecord} (move : Move)
      (before : Writes provider r first s history)
      (next : s.move? provider.recorded move = some t) :
      Writes provider r first t fun name =>
        if move.mover? = some name then s.write t name (history name) else history name

/-- The plan can come to a run in whose course its steps made some calls. -/
def Plan.Chronicle (p : Plan μ) (provider : Provider σ) (walker : Walker) (world : σ)
    (run : Run μ (Recorded σ)) (history : String → List CallRecord) : Prop :=
  ∃ cancelled start, p.begin walker ⟨world, []⟩ cancelled = .ok start ∧
    Run.Writes provider start (fun _ => []) run history

variable {p : Plan μ} {provider : Provider σ} {walker : Walker} {world : σ}

theorem Run.Writes.steps {r s : Run μ (Recorded σ)} {first history : String → List CallRecord}
    (h : Writes provider r first s history) : Steps provider.recorded r s := by
  induction h with
  | refl => exact .refl _
  | tail move _ next ih => exact .tail move ih next

theorem Plan.Chronicle.reaches {run : Run μ (Recorded σ)} {history : String → List CallRecord}
    (h : p.Chronicle provider walker world run history) :
    p.Reaches provider.recorded walker ⟨world, []⟩ run := by
  obtain ⟨cancelled, start, hbegin, hwrites⟩ := h
  exact ⟨cancelled, start, hbegin, hwrites.steps⟩

/-- Where a run can come to, its calls can be told. -/
theorem Plan.Reaches.exists_history {run : Run μ (Recorded σ)}
    (h : p.Reaches provider.recorded walker ⟨world, []⟩ run) :
    ∃ history, p.Chronicle provider walker world run history := by
  obtain ⟨cancelled, start, hbegin, hsteps⟩ := h
  induction hsteps with
  | refl => exact ⟨_, cancelled, start, hbegin, .refl _ _⟩
  | tail move _ next ih =>
    obtain ⟨history, _, _, hbegin', hwrites⟩ := ih
    exact ⟨_, _, _, hbegin', .tail move hwrites next⟩

/-- The provider behind the record notices nothing. -/
theorem Plan.Reaches.exists_chronicle {run : Run μ σ} (h : p.Reaches provider walker world run) :
    ∃ exchanges history, p.Chronicle provider walker world (run.noted exchanges) history := by
  obtain ⟨exchanges, hnoted⟩ := h.recorded
  exact ⟨exchanges, hnoted.exists_history⟩

namespace Run

variable {r s : Run μ (Recorded σ)} {name : String} {first step : Step μ} {worker : Worker μ}
  {calls : List CallRecord}

theorem asked_of_eq (h : s.world = r.world) : r.asked s = [] := by
  rw [asked, h, Nat.sub_self, List.take_zero]

theorem asked_of_respond {request : Request} {reply : Reply request.Answer}
    (h : provider.recorded.respond r.world request = (s.world, reply)) :
    r.asked s = [⟨request, reply⟩] := by
  cases hinner : provider.respond r.world.inner request with
  | mk after reply' =>
    rw [Provider.respond_recorded hinner] at h
    obtain ⟨hworld, hreply⟩ := Prod.mk.inj h
    rw [asked, ← hworld, ← hreply, List.length_cons, Nat.add_sub_cancel_left]
    rfl

theorem length_write (hsome : r.job? name = none → s.job? name = none) :
    (r.write s name calls).length = calls.length := by
  rw [write]
  split
  · rfl
  · next hr hs =>
    rw [hsome hr] at hs
    cases hs
  · rw [List.length_modifyHead]
  · rw [List.length_modifyHead]

/-! ## What is known of the calls -/

/-- How a step stands in a run that has made some calls of it. -/
inductive Called (first : Step μ) (r : Run μ (Recorded σ)) (name : String) :
    List CallRecord → Prop where
  /-- No call is under way. The step stands where the last call has left it, unless it was not done
  there and the run was called off. -/
  | between {calls : List CallRecord} {memo : μ} {status : Status}
      (ran : first.action.Ran first.memo first.status calls memo status)
      (idle : r.job? name = none) (remembers : r.memo? name = some memo)
      (stands : r.status? name = some status ∨ r.cancelled = true ∧ status.isDone = false ∧
        r.status? name = some (.cancelled (some "interrupted")))
      (waits : r.Waits name → r.status? name = some status ∧ status.isDone = false) :
      Called first r name calls
  /-- A call is under way. -/
  | inside {calls : List CallRecord} {memo : μ} {status : Status} {exchanges : List Exchange}
      {job : Job (μ × Outcome)}
      (ran : first.action.Ran first.memo first.status calls memo status)
      (isOpen : status.isDone = false)
      (went : (first.action.advance memo status).Went exchanges job)
      (call : r.job? name = some job) (remembers : r.memo? name = some memo)
      (stands : r.status? name = some status) :
      Called first r name (⟨status, exchanges, none⟩ :: calls)

namespace Called

theorem made (h : r.Called first name calls) :
    first.action.Made first.memo first.status calls := by
  cases h with
  | between ran _ _ _ _ => exact .between ran
  | inside ran isOpen went _ _ _ => exact .inside ran isOpen went

/-- A step that is inside of no call stands where the last call has left it, unless it was not done
there and the run was called off. -/
theorem of_idle (h : r.Called first name calls) (idle : r.job? name = none) :
    ∃ memo status, first.action.Ran first.memo first.status calls memo status ∧
      (r.status? name = some status ∨ r.cancelled = true ∧ status.isDone = false ∧
        r.status? name = some (.cancelled (some "interrupted"))) := by
  cases h with
  | inside _ _ _ call _ _ =>
    rw [idle] at call
    cases call
  | between ran _ _ stands _ => exact ⟨_, _, ran, stands⟩

/-- The calls of a step are a matter of the step and of its worker. -/
theorem congr (h : r.Called first name calls) (hjob : s.job? name = r.job? name)
    (hstep : s.step? name = r.step? name) (hwaits : s.Waits name → r.Waits name)
    (hcancelled : r.cancelled = true → s.cancelled = true) : s.Called first name calls := by
  have hmemo : s.memo? name = r.memo? name := by rw [memo?, memo?, hstep]
  have hstatus : s.status? name = r.status? name := by rw [status?, status?, hstep]
  cases h with
  | between ran idle remembers stands waits =>
    refine .between ran (hjob.trans idle) (hmemo.trans remembers) ?_ fun h => ?_
    · rw [hstatus]
      exact stands.imp_right fun h => ⟨hcancelled h.1, h.2⟩
    · rw [hstatus]
      exact waits (hwaits h)
  | inside ran isOpen went call remembers stands =>
    exact .inside ran isOpen went (hjob.trans call) (hmemo.trans remembers) (hstatus.trans stands)

/-- A step that nobody has called yet. -/
theorem fresh (hjob : r.job? name = none) (hstep : r.step? name = some first)
    (hwaits : ¬ r.Waits name) : r.Called first name [] :=
  .between .none hjob (memo?_eq_some hstep) (.inl (status?_eq_some hstep)) fun h => absurd h hwaits

/-- A worker that is not inside of a call waits, or ends. -/
theorem rests (h : r.Called first name calls) (hs : r.step? name = some step)
    (hcancelled : r.cancelled = true → s.cancelled = true) (before : r.job? name = none)
    (after : s.job? name = none) (memo : s.memo? name = some step.memo)
    (status : s.status? name = some step.status ∨ (step.status.isDone = false ∨ r.Waits name) ∧
      r.cancelled = true ∧ s.status? name = some (.cancelled (some "interrupted")))
    (waits : s.Waits name →
      s.status? name = some step.status ∧ (step.status.isDone = false ∨ r.Waits name)) :
    s.Called first name calls := by
  cases h with
  | inside _ _ _ call _ _ =>
    rw [before] at call
    cases call
  | @between calls memo' status' ran _ remembers stands waits' =>
    -- A step that is not done, or that waits, stands where the last call has left it.
    have hstatus := status?_eq_some hs
    have hopen : step.status.isDone = false ∨ r.Waits name →
        step.status = status' ∧ status'.isDone = false := by
      rintro (hopen | hwaits)
      · rcases stands with same | ⟨-, -, interrupted⟩
        · obtain rfl := Option.some.inj (hstatus.symm.trans same)
          exact ⟨rfl, hopen⟩
        · rw [Option.some.inj (hstatus.symm.trans interrupted)] at hopen
          cases hopen
      · obtain ⟨same, hopen⟩ := waits' hwaits
        exact ⟨Option.some.inj (hstatus.symm.trans same), hopen⟩
    refine .between ran after (memo.trans ((memo?_eq_some hs).symm.trans remembers)) ?_
      fun hwaits => ?_
    · rcases status with same | ⟨hopen', hc, interrupted⟩
      · rw [same, ← hstatus]
        exact stands.imp_right fun h => ⟨hcancelled h.1, h.2⟩
      · exact .inr ⟨hcancelled hc, (hopen hopen').2, interrupted⟩
    · obtain ⟨same, hopen'⟩ := waits hwaits
      obtain ⟨rfl, hstill⟩ := hopen hopen'
      exact ⟨same, hstill⟩

/-- The next call begins. -/
theorem begins (h : r.Called first name calls) (hs : r.step? name = some step)
    (haction : step.action = first.action) (before : r.job? name = none) (waited : r.Waits name)
    (after : s.job? name = some (step.action.advance step.memo step.status))
    (memo : s.memo? name = some step.memo) (status : s.status? name = some step.status) :
    s.Called first name ({ given := (r.status? name).getD .pending } :: calls) := by
  cases h with
  | inside _ _ _ call _ _ =>
    rw [before] at call
    cases call
  | between ran _ remembers _ waits =>
    obtain ⟨stands, isOpen⟩ := waits waited
    have hstatus := Option.some.inj ((status?_eq_some hs).symm.trans stands)
    have hmemo := Option.some.inj ((memo?_eq_some hs).symm.trans remembers)
    rw [haction, hmemo, hstatus] at after
    rw [stands, Option.getD_some]
    exact .inside ran isOpen .start after (memo.trans (congrArg some hmemo))
      (status.trans (congrArg some hstatus))

/-- The call under way goes on, with some further exchanges. -/
theorem goesOn (h : r.Called first name calls) (hs : r.step? name = some step)
    {job job' : Job (μ × Outcome)} {further : List Exchange} (before : r.job? name = some job)
    (after : s.job? name = some job')
    (went : ∀ {whole : Job (μ × Outcome)} {exchanges : List Exchange},
      whole.Went exchanges job → whole.Went (further ++ exchanges) job')
    (memo : s.memo? name = some step.memo) (status : s.status? name = some step.status) :
    s.Called first name
      (calls.modifyHead fun call => { call with exchanges := further ++ call.exchanges }) := by
  cases h with
  | between _ idle _ _ _ =>
    rw [before] at idle
    cases idle
  | inside ran isOpen went' call remembers stands =>
    obtain rfl := Option.some.inj (before.symm.trans call)
    exact .inside ran isOpen (went went') after
      (memo.trans ((memo?_eq_some hs).symm.trans remembers))
      (status.trans ((status?_eq_some hs).symm.trans stands))

/-- A turn of its worker makes a step go on, and the calls are those that are written down. -/
theorem stride (h : r.Called first name calls) (hs : r.step? name = some step)
    (haction : step.action = first.action) (hcancelled : r.cancelled = true → s.cancelled = true)
    (turn : Stride provider.recorded r s name step)
    (hopen : r.job? name = none →
      s.status? name = some step.status ∨ step.status.isDone = false ∨ r.Waits name) :
    s.Called first name (r.write s name calls) := by
  cases turn with
  | rests before after world memo status waits =>
    simp only [write, before, after]
    refine h.rests hs hcancelled before after memo ?_ waits
    rcases hopen before with same | hopen
    · exact .inl same
    · exact status.imp_right fun h => ⟨hopen, h⟩
  | begins before waited after world memo status =>
    simp only [write, before, after]
    exact h.begins hs haction before waited after memo status
  | goesOn before after rest world memo status =>
    simp only [write, before, after, asked_of_eq world]
    refine h.goesOn hs before after (fun hwent => ?_) memo status
    rcases rest with rfl | ⟨ms, rfl⟩ | rfl
    · exact hwent
    · exact .pause hwent
    · exact .callOff hwent
  | asks before after replied memo status =>
    simp only [write, before, after, asked_of_respond replied]
    exact h.goesOn hs before after (fun hwent => hwent.ask _) memo status
  | returns before after world remembers status waits =>
    simp only [write, before, after, asked_of_eq world, status]
    cases h with
    | between _ idle _ _ _ =>
      rw [before] at idle
      cases idle
    | inside ran isOpen went call _ _ =>
      obtain rfl := Option.some.inj (before.symm.trans call)
      exact .between (.returned ran isOpen went) after remembers (.inl status)
        fun h => absurd h waits
  | crashes before after replied memo status waits =>
    simp only [write, before, after, asked_of_respond replied, status]
    cases h with
    | between _ idle _ _ _ =>
      rw [before] at idle
      cases idle
    | inside ran isOpen went call remembers _ =>
      obtain rfl := Option.some.inj (before.symm.trans call)
      exact .between (.crashed ran isOpen went _) after
        (memo.trans ((memo?_eq_some hs).symm.trans remembers)) (.inl status)
        fun h => absurd h waits

end Called

/-- A worker that changes the status of its step outside of a call finds it not done, or has waited,
which it does only for a step that is not done. -/
theorem isOpen_of_turn {provider : Provider (Recorded σ)} (hw : r.workers.get? name = some worker)
    (hs : r.step? name = some step)
    (h : r.work? provider name = some s ∨ r.stop? name = some s) (idle : r.job? name = none) :
    s.status? name = some step.status ∨ step.status.isDone = false ∨ r.Waits name := by
  have hwaits : worker.phase.isWaiting = true → r.Waits name := fun h => ⟨worker, hw, h⟩
  rcases h with h | h
  · simp only [work?, hw] at h
    rw [job?_of_worker hw] at idle
    cases hphase : worker.phase with
    | deciding =>
      simp only [hphase, Option.some.injEq, decide, hs] at h
      cases hdone : step.status.isDone with
      | false => exact .inr (.inl rfl)
      | true =>
        rw [hdone, if_pos rfl] at h
        subst h
        exact .inl (status?_eq_some hs)
    | yielding | sleeping | queued => exact .inr (.inr (hwaits (by rw [hphase]; rfl)))
    | advancing | pausing =>
      rw [hphase] at idle
      cases idle
    | finished =>
      rw [hphase] at h
      cases h
  · simp only [stop?, hw, Option.ite_none_right_eq_some, Bool.and_eq_true] at h
    refine .inr (.inr (hwaits ?_))
    cases hphase : worker.phase with
    | sleeping | queued => rfl
    | _ =>
      rw [hphase] at h
      cases h.1.2

/-- What a move makes of a run, with the step whose worker makes it. -/
inductive Acted (provider : Provider σ) (r : Run μ σ) (move : Move) (s : Run μ σ) : Prop where
  /-- Time passed, or the run was called off. -/
  | passed (nobody : move.mover? = none) (plan : s.plan = r.plan) (walk : s.walk = r.walk)
      (workers : s.workers = r.workers) (world : s.world = r.world)
      (cancelled : r.cancelled = true → s.cancelled = true)
  /-- A worker went on. -/
  | turned {mover : String} {worker : Worker μ} {step : Step μ} (moves : move.mover? = some mover)
      (working : r.workers.get? mover = some worker) (found : r.step? mover = some step)
      (named : step.name = mover) (frame : Frame mover r s)
      (stride : Stride provider r s mover step)
      (turn : r.work? provider mover = some s ∨ r.stop? mover = some s)
  /-- The walk took the end of a worker. -/
  | settled {ended : String} {attempt : Nat} {ok : Bool} (nobody : move.mover? = none)
      (finished : r.workers.get? ended = some ⟨attempt, .finished ok⟩)
      (after : s = staff { r with
        workers := r.workers.erase ended, walk := r.walk.settle ended ok })

theorem Sound.acted {provider : Provider σ} {r s : Run μ σ} (hr : r.Sound p) {move : Move}
    (next : r.move? provider move = some s) : Acted provider r move s := by
  cases move with
  | wait nanos =>
    cases next
    exact .passed rfl rfl rfl rfl rfl id
  | cancel =>
    cases next
    exact .passed rfl rfl rfl rfl rfl fun _ => rfl
  | work mover =>
    cases hw : r.workers.get? mover with
    | none => simp [move?, work?, hw] at next
    | some worker =>
      obtain ⟨step, hs, hname⟩ := hr.exists_step hw
      exact .turned rfl hw hs hname (turn_of_work? hw hs hname next).frame
        (stride_of_work? hw hs hname next) (.inl next)
  | stop mover =>
    cases hw : r.workers.get? mover with
    | none => simp [move?, stop?, hw] at next
    | some worker =>
      obtain ⟨step, hs, hname⟩ := hr.exists_step hw
      exact .turned rfl hw hs hname (turn_of_stop? hw hs hname next).2.frame
        (stride_of_stop? hw hs hname next) (.inr next)
  | settle mover =>
    simp only [move?, settle?] at next
    split at next
    · next attempt ok hw =>
      cases next
      exact .settled rfl hw rfl
    · cases next

/-- Every move goes on with the calls of a step. -/
theorem Called.move (h : r.Called first name calls) (hr : r.Sound p)
    (hfirst : p.graph.get? name = some first) {move : Move}
    (next : r.move? provider.recorded move = some s) :
    s.Called first name (if move.mover? = some name then r.write s name calls else calls) := by
  cases hr.acted next with
  | passed nobody plan walk workers _ cancelled =>
    rw [nobody, if_neg nofun]
    refine h.congr ?_ (by rw [step?, step?, plan]) ?_ cancelled
    · rw [job?, job?, workers]
    · rw [Waits, Waits, workers]
      exact id
  | @turned mover worker step moves hw hs named frame stride turn =>
    rw [moves]
    by_cases hname : mover = name
    · subst hname
      rw [if_pos rfl]
      obtain ⟨old, hold, haction⟩ := hr.action mover step hs
      obtain rfl := Option.some.inj (hfirst.symm.trans hold)
      exact h.stride hs haction frame.cancelled stride (isOpen_of_turn hw hs turn)
    · rw [if_neg fun h => hname (Option.some.inj h)]
      have hne : name ≠ mover := fun h => hname h.symm
      have hworker := frame.worker_of_ne name hne
      refine h.congr ?_ (frame.step_of_ne name hne) ?_ frame.cancelled
      · rw [job?, job?, hworker]
      · rw [Waits, Waits, hworker]
        exact id
  | @settled ended attempt ok nobody finished after =>
    rw [nobody, if_neg nofun]
    obtain ⟨hjob, hwaits⟩ := job?_settled finished (r.walk.settle ended ok) name
    subst after
    exact h.congr hjob rfl hwaits id

/-- So do some moves. -/
theorem Called.writes {before history : String → List CallRecord} (hr : r.Sound p)
    (hfirst : p.graph.get? name = some first) (h : r.Called first name (before name))
    (writes : Writes provider r before s history) : s.Called first name (history name) := by
  induction writes with
  | refl => exact h
  | tail move steps next ih => exact (ih h).move (hr.steps steps.steps) hfirst next

/-- Where there is no step, nothing is called. -/
theorem Writes.eq_of_no_step {before history : String → List CallRecord} (hr : r.Sound p)
    (hnone : p.graph.get? name = none) (writes : Writes provider r before s history) :
    history name = before name := by
  induction writes with
  | refl => rfl
  | tail move steps next ih =>
    refine (if_neg fun hmover => ?_).trans ih
    -- A worker that moves has a step, and its step is one of the plan.
    have hs := hr.steps steps.steps
    cases hs.acted next with
    | passed nobody _ _ _ _ _ =>
      rw [nobody] at hmover
      cases hmover
    | settled nobody _ _ =>
      rw [nobody] at hmover
      cases hmover
    | turned moves _ found _ _ _ _ =>
      obtain rfl := Option.some.inj (moves.symm.trans hmover)
      obtain ⟨old, hold, -⟩ := hs.action _ _ found
      rw [hnone] at hold
      cases hold

end Run

/-- At the beginning nobody is inside of a call or waits for one. -/
theorem Plan.idle_begin {world : σ} {cancelled : Bool} {start : Run μ σ}
    (h : p.begin walker world cancelled = .ok start) (name : String) :
    start.job? name = none ∧ ¬ start.Waits name := by
  obtain ⟨r, -, -, hworkers, -, -, -, rfl⟩ := Plan.begin_eq_ok h
  have hnone : r.workers.get? name = none := by
    rw [hworkers]
    rfl
  have hidle := Run.idle_of_no_worker hnone
  split
  · exact hidle
  · obtain ⟨hjob, hwaits⟩ := Run.job?_staff { r with walk := r.walk.dispatch } name
    exact ⟨hjob.trans hidle.1, fun h => hidle.2 (hwaits h)⟩

/-- No step has been called. -/
theorem Plan.called_begin (hp : p.graph.Sound) {cancelled : Bool} {start : Run μ (Recorded σ)}
    (h : p.begin walker ⟨world, []⟩ cancelled = .ok start) {name : String} {first : Step μ}
    (hfirst : p.graph.get? name = some first) : start.Called first name [] := by
  obtain ⟨-, hgraph, -, -⟩ := Plan.sound_begin hp h
  obtain ⟨hjob, hwaits⟩ := Plan.idle_begin h name
  exact .fresh hjob (by rw [Run.step?, hgraph, hfirst]) hwaits

namespace Plan.Chronicle

variable {run : Run μ (Recorded σ)} {history : String → List CallRecord} {name : String}

/-- The calls of a step are calls of its action, whatever the schedule. -/
theorem called (hp : p.graph.Sound) (h : p.Chronicle provider walker world run history)
    {first : Step μ} (hfirst : p.graph.get? name = some first) :
    run.Called first name (history name) := by
  obtain ⟨cancelled, start, hbegin, hwrites⟩ := h
  obtain ⟨hsound, -, -, -⟩ := Plan.sound_begin hp hbegin
  exact Run.Called.writes hsound hfirst (Plan.called_begin hp hbegin hfirst) hwrites

/-- So the calls of a step are told by its action. Without a step there are none. -/
theorem exists_made (hp : p.graph.Sound) (h : p.Chronicle provider walker world run history)
    (hcalls : history name ≠ []) :
    ∃ first, p.graph.get? name = some first ∧
      first.action.Made first.memo first.status (history name) := by
  cases hfirst : p.graph.get? name with
  | some first => exact ⟨first, rfl, (h.called hp hfirst).made⟩
  | none =>
    obtain ⟨cancelled, start, hbegin, hwrites⟩ := h
    exact absurd (hwrites.eq_of_no_step (Plan.sound_begin hp hbegin).1 hfirst) hcalls

end Plan.Chronicle

/-- What a worker is about is what is left of a call of the action of its step, and this call was
given what the calls before it have left. -/
theorem Plan.Reaches.exists_call (hp : p.graph.Sound) {run : Run μ σ}
    (h : p.Reaches provider walker world run) {name : String} {job : Job (μ × Outcome)}
    (hjob : run.job? name = some job) :
    ∃ first calls memo status exchanges, p.graph.get? name = some first ∧
      first.action.Ran first.memo first.status calls memo status ∧ status.isDone = false ∧
      (first.action.advance memo status).Went exchanges job := by
  have hr := h.sound hp
  obtain ⟨worker, hw, -⟩ := Option.bind_eq_some_iff.1 hjob
  obtain ⟨step, hs, -⟩ := hr.exists_step hw
  obtain ⟨first, hfirst, -⟩ := hr.action name step hs
  obtain ⟨_, history, hchronicle⟩ := h.exists_chronicle
  have hcalled := hchronicle.called hp hfirst
  generalize history name = calls at hcalled
  cases hcalled with
  | between _ idle _ _ _ =>
    rw [show run.job? name = none from idle] at hjob
    cases hjob
  | inside ran isOpen went call _ _ =>
    obtain rfl := Option.some.inj (hjob.symm.trans call)
    exact ⟨first, _, _, _, _, hfirst, ran, isOpen, went⟩

end Rollout

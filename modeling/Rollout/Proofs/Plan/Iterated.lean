import Rollout.Proofs.Plan.Chronicle

/-!
# A worker calls its action again and again

What a worker does, waits and cancellations included, comes to this: the action is called with the
status of the step, then with what came of that, and so on until something done comes of it. A
cancellation can only make an end of it before the next call.

* `Run.Called.of_ended`: where the calls of a worker that has ended have left its step.
* `Run.Unbegun`: the worker of a step has done nothing yet.
* `Run.Writes.length_le`: once the run is called off, a worker that waits may make one more call,
  and any other worker none.
* `Plan.Chronicle.iterates`: all this of every run whose sink is quiet.
-/

namespace Rollout

variable {μ σ : Type}

namespace Run

variable {p : Plan μ} {provider : Provider σ} {name : String} {first step : Step μ}
  {worker : Worker μ} {calls : List CallRecord}

/-! ## The end of a worker -/

/-- A worker that has ended has left a step that is done, well if and only if it says so. -/
theorem Sound.status_of_ended {r : Run μ σ} (hr : r.Sound p)
    (quiet : ∀ journal, p.sink.breaksAt journal = false) {ok : Bool} (h : r.EndedWith name ok) :
    ∃ status, r.status? name = some status ∧ status.isDone = true ∧ status.isOk = ok := by
  cases ok with
  | true =>
    obtain ⟨status, hstatus, hok⟩ := hr.well name h
    exact ⟨status, hstatus, (Status.isDone_iff status).2 (.inl hok), hok⟩
  | false =>
    obtain ⟨status, hstatus, ⟨hdone, hnot⟩ | hbroke⟩ := hr.unwell name h
    · exact ⟨status, hstatus, hdone, hnot⟩
    · obtain ⟨_, _, _, _, hbreaks⟩ := hbroke
      rw [hr.sink, quiet] at hbreaks
      cases hbreaks

/-- The step stands where the last call has left it, if it was done there; else it was cancelled. -/
theorem Called.of_ended {r : Run μ (Recorded σ)} (h : r.Called first name calls) (hr : r.Sound p)
    {ok : Bool} (hended : r.EndedWith name ok) {status : Status}
    (hstatus : r.status? name = some status) (hdone : status.isDone = true) :
    ∃ memo last, first.action.Ran first.memo first.status calls memo last ∧
      status = if last.isDone then last else .cancelled (some "interrupted") := by
  obtain ⟨memo, last, ran, stands⟩ := h.of_idle (hended.idle hr).2
  refine ⟨memo, last, ran, ?_⟩
  rcases stands with same | ⟨-, hopen, interrupted⟩
  · obtain rfl := Option.some.inj (hstatus.symm.trans same)
    rw [if_pos hdone]
  · rw [if_neg (by rw [hopen]; exact Bool.false_ne_true)]
    exact Option.some.inj (hstatus.symm.trans interrupted)

/-! ## Before the first call -/

/-- The worker of a step has done nothing yet, or is not there yet. -/
def Unbegun (r : Run μ σ) (name : String) : Prop :=
  name ∉ r.walk.dispatched ∨ r.workers.get? name = some .fresh

section

variable {r s : Run μ σ}

theorem not_fresh_endCall (hw : r.workers.get? name = some worker)
    (hs : r.step? name = some step) (hname : step.name = name) (outcome : Outcome) :
    (r.endCall name outcome).workers.get? name ≠ some .fresh := by
  have hw' := (sets_setStatus hs hname outcome.status).workers ▸ hw
  rw [endCall]
  generalize r.setStatus name outcome.status = pair at hw'
  obtain ⟨t, broke⟩ := pair
  have hafter := Table.get?_modify_self hw' fun w : Worker μ =>
    if broke then { w with phase := .finished false } else ⟨w.attempt + 1, .deciding⟩
  refine fun hfresh => ?_
  have heq := Option.some.inj (hafter.symm.trans hfresh)
  cases broke with
  | true => cases congrArg Worker.phase heq
  | false => cases congrArg Worker.attempt heq

/-- After a turn a worker has done something. -/
theorem not_fresh_of_turn {provider : Provider σ} (hw : r.workers.get? name = some worker)
    (hs : r.step? name = some step) (hname : step.name = name)
    (h : r.work? provider name = some s ∨ r.stop? name = some s) :
    s.workers.get? name ≠ some .fresh := by
  have hturn : Turn r s name worker.phase step := by
    rcases h with h | h
    · exact turn_of_work? hw hs hname h
    · exact (turn_of_stop? hw hs hname h).2
  obtain ⟨-, attempt, phase', status, hw', -, heffect⟩ := hturn
  by_cases hphase : phase' = .deciding
  · -- Only the end of a call lets a worker decide again, and it has made an attempt then.
    subst hphase
    cases heffect with
    | waits waiting _ _ _ => cases waiting
    | calls _ after _ _ _ => cases after
    | carriesOn _ after _ _ _ _ => cases after
    | ends _ _ after _ _ _ => cases after
    | interrupted _ after _ _ _ => cases after
    | @concludes job outcome before came _ _ _ _ =>
      rcases h with h | h
      · simp only [work?, hw, before, Option.some.injEq] at h
        subst h
        cases job with
        | done value =>
          have halike := alike_setMemo hs hname value.1
          exact not_fresh_endCall (halike.workers ▸ hw) halike.found halike.named value.2
        | ask request next =>
          rw [advance] at hw' ⊢
          generalize provider.respond r.world request = reply at hw' ⊢
          obtain ⟨world, result | message⟩ := reply
          · rw [worker_setPhase (r := { r with world }) hw] at hw'
            cases hw'
          · exact not_fresh_endCall (r := { r with world }) hw hs hname _
        | pause ms next =>
          rw [advance, worker_setPhase hw] at hw'
          cases hw'
        | callOff next =>
          rw [advance, worker_setPhase (r := { r with cancelled := true }) hw] at hw'
          cases hw'
      · simp only [stop?, hw, before, Phase.isListening, Bool.and_false, Bool.false_eq_true,
          if_false] at h
        cases h
  · rw [hw']
    intro hfresh
    exact hphase (congrArg Worker.phase (Option.some.inj hfresh))

/-- A worker that has done nothing had done nothing before. -/
theorem Unbegun.of_move {provider : Provider σ} (hr : r.Sound p) {move : Move}
    (next : r.move? provider move = some s) (h : s.Unbegun name) :
    r.Unbegun name ∧ move.mover? ≠ some name := by
  cases hr.acted next with
  | passed nobody _ walk workers _ _ =>
    rw [Unbegun, walk, workers] at h
    exact ⟨h, nobody ▸ nofun⟩
  | @turned mover worker step moves hw hs hname frame _ turn =>
    rw [moves]
    by_cases hmover : mover = name
    · subst hmover
      rcases h with h | h
      · rw [frame.walk] at h
        exact absurd (hr.mem_dispatched hw) h
      · exact absurd h (not_fresh_of_turn hw hs hname turn)
    · rw [Unbegun, frame.walk, frame.worker_of_ne name fun h => hmover h.symm] at h
      exact ⟨h, fun h => hmover (Option.some.inj h)⟩
  | @settled ended attempt ok nobody finished after =>
    refine ⟨?_, nobody ▸ nofun⟩
    by_cases hd : name ∈ r.walk.dispatched
    · -- The visit has begun, and its worker is still there, so it is no new one.
      subst after
      have hd' := (Walk.dispatched_prefix_settle r.walk ended ok).subset hd
      have hfresh := h.resolve_left fun hnot => hnot hd'
      rw [get?_staff] at hfresh
      simp only [Table.get?_erase] at hfresh
      have hsettled := Walk.mem_settled_settle_iff r.walk ended name ok
      by_cases hended : name = ended
      · rw [if_neg fun hflight =>
          (Walk.mem_inFlight_iff.1 hflight).2 (hsettled.2 (.inl hended)), if_pos hended] at hfresh
        cases hfresh
      · rw [if_neg hended] at hfresh
        cases hw : r.workers.get? name with
        | some worker =>
          rw [hw, Option.getD_some, ite_self] at hfresh
          exact .inr (hw.trans hfresh)
        | none =>
          have hold : name ∈ r.walk.report.settled := by
            by_contra hnot
            obtain ⟨worker, hw'⟩ := (hr.staffed name).1 (Walk.mem_inFlight_iff.2 ⟨hd, hnot⟩)
            rw [hw] at hw'
            cases hw'
          rw [if_neg fun hflight =>
            (Walk.mem_inFlight_iff.1 hflight).2 (hsettled.2 (.inr (.inl hold))), hw] at hfresh
          cases hfresh
    · exact .inl hd

end

/-- Before its worker begins there are no calls of a step. -/
theorem Writes.eq_of_unbegun {r s : Run μ (Recorded σ)} {before history : String → List CallRecord}
    (hr : r.Sound p) (writes : Writes provider r before s history) (h : s.Unbegun name) :
    history name = before name := by
  induction writes with
  | refl => rfl
  | tail move steps next ih =>
    obtain ⟨hbefore, hnot⟩ := h.of_move (hr.steps steps.steps) next
    exact (if_neg hnot).trans (ih hbefore)

/-! ## After a cancellation -/

/-- The worker of a step waits for a moment or for a slot. It may hear that the run was called off,
and it may go on before it does. -/
def listens (r : Run μ σ) (name : String) : Bool :=
  (r.workers.get? name).any (·.phase.isListening)

section

variable {r s : Run μ σ}

theorem listens_of_worker (hw : r.workers.get? name = some worker) :
    r.listens name = worker.phase.isListening := by
  rw [listens, hw, Option.any_some]

/-- A worker that is inside of a call, or does not wait for one, would not hear anything. -/
theorem listens_eq_false (h : r.job? name ≠ none ∨ ¬ r.Waits name) : r.listens name = false := by
  cases hw : r.workers.get? name with
  | none => rw [listens, hw, Option.any_none]
  | some worker =>
    rw [listens_of_worker hw]
    rw [job?_of_worker hw, waits_iff hw] at h
    cases hphase : worker.phase with
    | sleeping | queued =>
      rw [hphase] at h
      rcases h with h | h
      · exact absurd rfl h
      · exact absurd rfl h
    | _ => rfl

/-- A worker that has done nothing yet does not wait. -/
theorem Unbegun.listens_eq_false (h : r.Unbegun name) (hr : r.Sound p) :
    r.listens name = false := by
  rcases h with h | h
  · cases hw : r.workers.get? name with
    | none => rw [listens, hw, Option.any_none]
    | some worker => exact absurd (hr.mem_dispatched hw) h
  · rw [listens_of_worker h]
    rfl

/-- A worker that is inside of a call does not wait at once for the next one. -/
theorem listens_of_call {provider : Provider σ} {job : Job (μ × Outcome)}
    (hjob : r.job? name = some job) (stride : Stride provider r s name step) :
    s.listens name = false := by
  cases stride with
  | rests before _ _ _ _ _ =>
    rw [hjob] at before
    cases before
  | begins before _ _ _ _ _ =>
    rw [hjob] at before
    cases before
  | goesOn _ after _ _ _ _ => exact listens_eq_false (.inl (by rw [after]; nofun))
  | asks _ after _ _ _ => exact listens_eq_false (.inl (by rw [after]; nofun))
  | returns _ _ _ _ _ waits => exact listens_eq_false (.inr waits)
  | crashes _ _ _ _ _ waits => exact listens_eq_false (.inr waits)

/-- In a run that was called off a worker that does not wait begins no call, and does not wait
either. -/
theorem rests_of_cancelled {provider : Provider σ} (hw : r.workers.get? name = some worker)
    (hs : r.step? name = some step) (hname : step.name = name) (hc : r.cancelled = true)
    (hidle : r.job? name = none) (hdeaf : r.listens name = false)
    (h : r.work? provider name = some s ∨ r.stop? name = some s) :
    s.job? name = none ∧ s.listens name = false := by
  have hinterrupt : (r.interrupt name).job? name = none ∧ (r.interrupt name).listens name = false :=
    have hrested := rested_interrupt hw hs hname
    ⟨hrested.job, listens_eq_false (.inr hrested.waits)⟩
  rw [listens_of_worker hw] at hdeaf
  rw [job?_of_worker hw] at hidle
  rcases h with h | h
  · simp only [work?, hw] at h
    cases hphase : worker.phase with
    | deciding =>
      simp only [hphase, Option.some.injEq, decide, hs, hc, if_true] at h
      subst h
      split
      · refine ⟨job?_setPhase hw _, listens_eq_false (.inr fun hwaits => ?_)⟩
        cases (waits_setPhase hw _).1 hwaits
      · exact hinterrupt
    | yielding =>
      simp only [hphase, Option.some.injEq, hc, if_true] at h
      exact h ▸ hinterrupt
    | sleeping | queued =>
      rw [hphase] at hdeaf
      cases hdeaf
    | advancing | pausing =>
      rw [hphase] at hidle
      cases hidle
    | finished =>
      rw [hphase] at h
      cases h
  · simp only [stop?, hw, hdeaf, Bool.and_false, Bool.false_eq_true, if_false] at h
    cases h

end

variable {r s : Run μ (Recorded σ)}

/-- What a turn adds to the calls it takes from the waiting. -/
theorem length_write_add_le (hw : r.workers.get? name = some worker)
    (hs : r.step? name = some step) (hname : step.name = name) (hc : r.cancelled = true)
    (stride : Stride provider.recorded r s name step)
    (h : r.work? provider.recorded name = some s ∨ r.stop? name = some s) :
    (r.write s name calls).length + (s.listens name).toNat ≤
      calls.length + (r.listens name).toNat := by
  cases hjob : r.job? name with
  | some job =>
    have hnone : r.job? name = none → s.job? name = none := by
      rw [hjob]
      nofun
    rw [length_write hnone, listens_of_call hjob stride]
    exact Nat.add_le_add_left (Nat.zero_le _) _
  | none =>
    cases hlistens : r.listens name with
    | false =>
      obtain ⟨hafter, hdeaf⟩ := rests_of_cancelled hw hs hname hc hjob hlistens h
      rw [length_write fun _ => hafter, hdeaf]
    | true =>
      cases hafter : s.job? name with
      | none =>
        rw [length_write fun _ => hafter]
        exact Nat.add_le_add_left (Bool.toNat_le _) _
      | some job =>
        have hdeaf : s.listens name = false := listens_eq_false (.inl (by rw [hafter]; nofun))
        simp only [write, hjob, hafter, hdeaf]
        exact Nat.le_refl _

theorem toNat_listens_le {r s : Run μ σ} (h : s.listens name = true → r.listens name = true) :
    (s.listens name).toNat ≤ (r.listens name).toNat := by
  cases hs : s.listens name with
  | false => exact Nat.zero_le _
  | true => rw [h hs]

/-- So does every move of a run that was called off. -/
theorem length_move_le (hr : r.Sound p) (hc : r.cancelled = true) {move : Move}
    (next : r.move? provider.recorded move = some s) :
    (if move.mover? = some name then r.write s name calls else calls).length +
      (s.listens name).toNat ≤ calls.length + (r.listens name).toNat := by
  cases hr.acted next with
  | passed nobody _ _ workers _ _ =>
    rw [nobody, if_neg nofun, listens, listens, workers]
  | @turned mover worker step moves hw hs hname frame stride turn =>
    rw [moves]
    by_cases hmover : mover = name
    · subst hmover
      rw [if_pos rfl]
      exact length_write_add_le hw hs hname hc stride turn
    · rw [if_neg fun h => hmover (Option.some.inj h), listens, listens,
        frame.worker_of_ne name fun h => hmover h.symm]
  | settled nobody _ after =>
    rw [nobody, if_neg nofun]
    refine Nat.add_le_add_left (toNat_listens_le fun hlistens => ?_) _
    -- A worker that waits is not a fresh one, so it was there before.
    subst after
    obtain ⟨worker, hw, hphase⟩ := (Option.any_eq_true _ _).1 hlistens
    rcases get?_staff_eq_some hw with rfl | hw
    · cases hphase
    · rw [Table.get?_erase] at hw
      split at hw
      · cases hw
      · rw [listens_of_worker hw, hphase]

/-- A run that was called off stays so. -/
theorem Sound.cancelled_of_steps {provider : Provider σ} {r s : Run μ σ} (hr : r.Sound p)
    (h : Steps provider r s) (hc : r.cancelled = true) : s.cancelled = true := by
  induction h with
  | refl => exact hc
  | tail _ before next ih =>
    cases (hr.steps before).acted next with
    | passed _ _ _ _ _ cancelled => exact cancelled ih
    | turned _ _ _ _ frame _ _ => exact frame.cancelled ih
    | settled _ _ after => exact after ▸ ih

/-- Once a run is called off, a worker that waits may make one more call, and no other worker makes
any. -/
theorem Writes.length_le {before history : String → List CallRecord} (hr : r.Sound p)
    (hc : r.cancelled = true) (writes : Writes provider r before s history) (name : String) :
    (history name).length + (s.listens name).toNat ≤
      (before name).length + (r.listens name).toNat := by
  induction writes with
  | refl => exact Nat.le_refl _
  | tail move steps next ih =>
    refine (length_move_le (hr.steps steps.steps) ?_ next).trans ih
    exact hr.cancelled_of_steps steps.steps hc

end Run

theorem Plan.Chronicle.eq_nil_of_unbegun {p : Plan μ} (hp : p.graph.Sound) {provider : Provider σ}
    {walker : Walker} {world : σ} {run : Run μ (Recorded σ)} {history : String → List CallRecord}
    (h : p.Chronicle provider walker world run history) {name : String}
    (hunbegun : run.Unbegun name) : history name = [] := by
  obtain ⟨cancelled, start, hbegin, hwrites⟩ := h
  exact hwrites.eq_of_unbegun (Plan.sound_begin hp hbegin).1 hunbegun

/-- When a worker has ended, its action has been called with the status of the step, then with what
came of that, and so on, as long as nothing done came of it. From a status that is done nothing is
called. The step stands where the last call has left it, if it is done there, and else it was
cancelled, and the worker has ended well if and only if it stands well. Once the run is called off,
at most one more call of the step begins, and none does unless its worker waits at this moment. If
its worker has done nothing by then, the step is never called. -/
theorem Plan.Chronicle.iterates {p : Plan μ} (hp : p.graph.Sound)
    (quiet : ∀ journal, p.sink.breaksAt journal = false) {provider : Provider σ} {walker : Walker}
    {world : σ} {run : Run μ (Recorded σ)} {history : String → List CallRecord}
    (h : p.Chronicle provider walker world run history) {name : String} {first : Step μ}
    (hfirst : p.graph.get? name = some first) :
    (∀ ok, run.EndedWith name ok → ∃ memo last status,
      first.action.Ran first.memo first.status (history name) memo last ∧
      some first.status :: (history name).reverse.map (·.result) =
        (history name).reverse.map (fun call => some call.given) ++ [some last] ∧
      (∀ call ∈ history name, call.given.isDone = false) ∧
      (first.status.isDone = true → history name = [] ∧ last = first.status) ∧
      run.status? name = some status ∧
      (status = if last.isDone then last else .cancelled (some "interrupted")) ∧
      (ok = true ↔ ∃ reason, status = .complete reason ∨ status = .skipped reason)) ∧
    ∀ earlier before, p.Chronicle provider walker world earlier before →
      Run.Writes provider earlier before run history → earlier.cancelled = true →
      (history name).length ≤ (before name).length + 1 ∧
      (earlier.listens name = false → (history name).length ≤ (before name).length) ∧
      (earlier.Unbegun name → history name = []) := by
  have hr := h.reaches.sound hp
  refine ⟨fun ok hended => ?_, fun earlier before hearlier hwrites hc => ?_⟩
  · obtain ⟨status, hstatus, hdone, hok⟩ := hr.status_of_ended quiet hended
    obtain ⟨memo, last, hran, hlast⟩ :=
      (h.called hp hfirst).of_ended hr hended hstatus hdone
    refine ⟨memo, last, status, hran, hran.results, hran.given_isOpen, hran.eq_nil_of_isDone,
      hstatus, hlast, ?_⟩
    rw [← hok]
    cases status <;> simp [Status.isOk]
  · have hlength := hwrites.length_le (hearlier.reaches.sound hp) hc name
    have hone := Bool.toNat_le (earlier.listens name)
    have hnone : earlier.listens name = false →
        (history name).length ≤ (before name).length := by
      intro hdeaf
      rw [hdeaf] at hlength
      exact (Nat.le_add_right _ _).trans hlength
    refine ⟨by omega, hnone, fun hunbegun => ?_⟩
    have hbefore := hearlier.eq_nil_of_unbegun hp hunbegun
    have hle := hnone (hunbegun.listens_eq_false (hearlier.reaches.sound hp))
    rw [hbefore] at hle
    exact List.eq_nil_of_length_eq_zero (Nat.le_zero.1 hle)

/-! ### Called off inside of the last call -/

/-- A step whose action is called twice before it is complete. -/
def Step.twice : Step Bool where
  name := "one"
  shortName := "one"
  requires := []
  action := ⟨fun called _ =>
    .done (true, .settled (if called then .complete none else .submitted none))⟩
  memo := false

/-- The plan of this step. -/
def Plan.twice (poll : PollPolicy) : Plan Bool where
  id := "run"
  description := ""
  graph := ⟨.ofList [("one", .twice)], ⟨[("one", [])]⟩⟩
  poll := poll

theorem Plan.ofSteps_twice (poll : PollPolicy) :
    StepGraph.ofSteps [Step.twice] = .ok (Plan.twice poll).graph := by
  cbv

theorem Plan.plays_twice :
    ((Plan.twice (.fixed 0)).playsAtOnce Provider.idle.recorded .sequential ⟨(), []⟩
      [.work "one", .work "one", .work "one", .work "one", .work "one", .work "one", .work "one",
        .cancel, .work "one", .work "one"]).any (fun run =>
      run.cancelled &&
        (match run.workers.get? "one" with
          | some ⟨_, .finished true⟩ => true
          | _ => false)) = true := by
  decide +kernel

/-- A step whose run is called off while its last call is under way stands where this call leaves
it. -/
theorem Plan.iterates_twice :
    ∃ (run : Run Bool (Recorded Unit)) (history : String → List CallRecord),
      (Plan.twice (.fixed 0)).Chronicle .idle .sequential () run history ∧ run.cancelled = true ∧
      run.EndedWith "one" true ∧
      ∃ memo last, Step.twice.action.Ran false .pending (history "one") memo last ∧
        run.status? "one" = some last := by
  obtain ⟨run, hrun, h⟩ := (Option.any_eq_true _ _).1 Plan.plays_twice
  rw [Bool.and_eq_true] at h
  obtain ⟨hcancelled, hfinished⟩ := h
  have hended : run.EndedWith "one" true := by
    split at hfinished
    · next attempt hw => exact .inl ⟨attempt, hw⟩
    · cases hfinished
  rw [Plan.playsAtOnce_eq] at hrun
  obtain ⟨history, hchronicle⟩ := (Plan.reaches_of_plays hrun).exists_history
  have hsound := (StepGraph.Built.ofSteps (Plan.ofSteps_twice (.fixed 0))).sound
  obtain ⟨hiterates, -⟩ := Plan.Chronicle.iterates hsound (fun _ => rfl) hchronicle
    (show (Plan.twice (.fixed 0)).graph.get? "one" = some Step.twice from rfl)
  obtain ⟨memo, last, status, hran, -, -, -, hstatus, hlast, hok⟩ := hiterates true hended
  refine ⟨run, history, hchronicle, hcancelled, hended, memo, last, hran, ?_⟩
  -- The worker has ended well, so its step was not cancelled.
  obtain ⟨reason, hreason⟩ := hok.1 rfl
  split at hlast
  · exact hlast ▸ hstatus
  · subst hlast
    rcases hreason with h | h
    · cases h
    · cases h

end Rollout

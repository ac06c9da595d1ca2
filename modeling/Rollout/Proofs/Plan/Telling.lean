import Mathlib.Logic.Function.Basic
import Mathlib.Logic.Relation
import Rollout.Proofs.Plan.Closing
import Rollout.Proofs.Plan.Visits

/-!
# What a run tells

Nothing about a step changes without being told, and nothing is told that did not change. A run
tells at most one change at a time, and it never tells one of a step that is done.

* `Run.view`: where a step stands, and since when.
* `Run.Telling`: one run comes from another by telling at most one change.
* `Run.Undone`: only steps that are not done are worked on, and steps that nobody visited are as
  they were.
* `Run.telling_of_move?` and `Run.tellings_close`: so it is with every move, and with the end.
-/

namespace Rollout

variable {μ σ : Type}

namespace Run

variable {p : Plan μ} {provider : Provider σ} {r s t : Run μ σ} {name : String} {step : Step μ}
  {worker : Worker μ}

/-! ## Views -/

/-- Where the step of a name stands, and since when. -/
def view (r : Run μ σ) (name : String) : Option Snapshot := (r.step? name).map (·.snapshot)

theorem view_eq_some (h : r.step? name = some step) : r.view name = some step.snapshot := by
  rw [view, h, Option.map_some]

/-- Another step in the place of one of its name is all that changes. -/
theorem view_setStep {old : Step μ} (h : r.step? step.name = some old) :
    (r.setStep step).view = Function.update r.view step.name (some step.snapshot) := by
  funext m
  by_cases hm : m = step.name
  · subst hm
    rw [Function.update_self, view_eq_some (step?_setStep_self h)]
  · rw [Function.update_of_ne hm, view, view, step?_setStep, if_neg hm]

/-- What an action remembers is not shown. -/
theorem view_setMemo (hs : r.step? name = some step) (hname : step.name = name) (memo : μ) :
    (r.setMemo name memo).view = r.view := by
  subst hname
  simp only [setMemo, hs]
  have hset : (r.setStep { step with memo }).view =
      Function.update r.view step.name (some step.snapshot) := view_setStep hs
  rw [hset]
  exact Function.update_eq_self_iff.2 (view_eq_some hs).symm

/-! ## Telling -/

/-- At most one step got another status, and that was told. The step was not done before. -/
inductive Telling (r s : Run μ σ) : Prop where
  | nothing (journal : s.journal = r.journal) (view : s.view = r.view)
  | change {name : String} {old : Snapshot} {status : Status} {moment : Timestamp}
      (found : r.view name = some old) (opened : old.status.isDone = false)
      (other : old.status ≠ status)
      (journal : s.journal = r.journal.record moment (.stepChanged name status moment))
      (view : s.view = Function.update r.view name (some ⟨name, status, moment⟩))

/-- Telling is about the journal and the views only. -/
theorem Telling.congr {r' s' : Run μ σ} (h : Telling r s) (journal : r'.journal = r.journal)
    (view : r'.view = r.view) (journal' : s'.journal = s.journal) (view' : s'.view = s.view) :
    Telling r' s' := by
  cases h with
  | nothing same views =>
    exact .nothing (by rw [journal', same, journal]) (by rw [view', views, view])
  | change found opened other told views =>
    exact .change (view ▸ found) opened other (by rw [journal', told, journal])
      (by rw [view', views, view])

/-- A status that the step has already is not told again. -/
theorem telling_setStatus (hs : r.step? name = some step) (hname : step.name = name)
    (hopen : step.status.isDone = false) (status : Status) :
    Telling r (r.setStatus name status).1 := by
  subst hname
  unfold setStatus
  simp only [hs]
  split
  · exact .nothing rfl rfl
  · next hne => exact .change (view_eq_some hs) hopen hne rfl (view_setStep hs)

theorem telling_interrupt (hs : r.step? name = some step) (hname : step.name = name)
    (hopen : step.status.isDone = false) : Telling r (r.interrupt name) :=
  (telling_setStatus hs hname hopen (.cancelled (some "interrupted"))).congr rfl rfl rfl rfl

theorem telling_endCall (hs : r.step? name = some step) (hname : step.name = name)
    (hopen : step.status.isDone = false) (outcome : Outcome) :
    Telling r (r.endCall name outcome) :=
  (telling_setStatus hs hname hopen outcome.status).congr rfl rfl rfl rfl

theorem telling_assign (hs : r.step? name = some step) (hname : step.name = name)
    (hopen : step.status.isDone = false) (status : Status) :
    Telling r (r.assign name status) := by
  unfold assign
  split
  · exact .nothing rfl rfl
  · exact (telling_setStatus hs hname hopen status).congr rfl rfl rfl rfl

/-! ## Steps that are not done -/

/-- Steps whose workers wait for a call or are inside of one are not done. Steps without a visit are
those of the plan. -/
structure Undone (p : Plan μ) (r : Run μ σ) : Prop where
  opened : ∀ name, r.Waits name ∨ (∃ job, r.job? name = some job) →
    ∃ status, r.status? name = some status ∧ status.isDone = false
  untouched : ∀ name, name ∉ r.walk.dispatched → r.step? name = p.graph.get? name

namespace Undone

/-- Which of the steps are worked on matters, not how. -/
theorem congr (h : r.Undone p) (hjob : ∀ m, s.job? m = r.job? m ∧ (s.Waits m → r.Waits m))
    (hstep : ∀ m, s.step? m = r.step? m) (hgrows : r.walk.dispatched ⊆ s.walk.dispatched) :
    s.Undone p where
  opened m hm := by
    rw [status?, hstep]
    apply h.opened m
    rw [← (hjob m).1]
    exact hm.imp_left (hjob m).2
  untouched m hm := (hstep m).trans (h.untouched m fun hold => hm (hgrows hold))

/-- A step that is worked on is not done. -/
theorem isDone_eq_false (h : r.Undone p) (hs : r.step? name = some step)
    (hworked : r.Waits name ∨ ∃ job, r.job? name = some job) : step.status.isDone = false := by
  obtain ⟨status, hstatus, hopen⟩ := h.opened name hworked
  obtain rfl := Option.some.inj ((status?_eq_some hs).symm.trans hstatus)
  exact hopen

/-- A worker goes on to a call only with a step that is not done. -/
theorem of_stride (h : r.Undone p) (hs : r.step? name = some step)
    (turn : Stride provider r s name step)
    (hm : s.Waits name ∨ ∃ job, s.job? name = some job) :
    ∃ status, s.status? name = some status ∧ status.isDone = false := by
  have hbefore := h.isDone_eq_false hs
  cases turn with
  | rests _ after _ _ _ waits =>
    rcases hm with hwaits | ⟨job, hjob⟩
    · obtain ⟨hstatus, hopen | hwaited⟩ := waits hwaits
      · exact ⟨_, hstatus, hopen⟩
      · exact ⟨_, hstatus, hbefore (.inl hwaited)⟩
    · rw [after] at hjob
      cases hjob
  | begins _ waited _ _ _ status => exact ⟨_, status, hbefore (.inl waited)⟩
  | goesOn before _ _ _ _ status => exact ⟨_, status, hbefore (.inr ⟨_, before⟩)⟩
  | asks before _ _ _ status => exact ⟨_, status, hbefore (.inr ⟨_, before⟩)⟩
  | returns _ after _ _ _ waits =>
    rcases hm with hwaits | ⟨job, hjob⟩
    · exact absurd hwaits waits
    · rw [after] at hjob
      cases hjob
  | crashes _ after _ _ _ waits =>
    rcases hm with hwaits | ⟨job, hjob⟩
    · exact absurd hwaits waits
    · rw [after] at hjob
      cases hjob

theorem turned (h : r.Undone p) (hr : r.Sound p) (hw : r.workers.get? name = some worker)
    (hs : r.step? name = some step) (frame : Frame name r s)
    (turn : Stride provider r s name step) : s.Undone p where
  opened m hm := by
    by_cases hmn : m = name
    · subst hmn
      exact h.of_stride hs turn hm
    · rw [status?_of_frame frame hmn]
      apply h.opened m
      rw [Waits, job?, frame.worker_of_ne m hmn] at hm
      exact hm
  untouched m hm := by
    rw [frame.walk] at hm
    have hmn : m ≠ name := fun heq => hm (heq ▸ hr.mem_dispatched hw)
    exact (frame.step_of_ne m hmn).trans (h.untouched m hm)

theorem after_move (h : r.Undone p) (hr : r.Sound p) {move : Move}
    (next : r.move? provider move = some s) : s.Undone p := by
  cases strode_of_move? (fun _ _ hw => hr.exists_step hw) next with
  | passed plan walk workers _ _ =>
    refine h.congr (fun m => ?_) (fun m => by rw [step?, step?, plan]) (walk ▸ List.Subset.refl _)
    rw [job?, job?, Waits, Waits, workers]
    exact ⟨rfl, id⟩
  | turned working found frame stride => exact h.turned hr working found frame stride
  | settled finished after =>
    subst after
    refine h.congr (job?_settled finished _) (fun _ => rfl) ?_
    obtain ⟨new, hnew⟩ := Walk.dispatched_prefix_settle r.walk _ _
    exact fun m hm => hnew ▸ List.mem_append_left new hm

end Undone

end Run

/-- When a run begins, nobody works on a step, and all steps are those of the plan. -/
theorem Plan.undone_begin {p : Plan μ} {walker : Walker} {world : σ} {cancelled : Bool}
    {start : Run μ σ} (h : p.begin walker world cancelled = .ok start) : start.Undone p := by
  obtain ⟨r, hplan, -, hworkers, -, -, -, rfl⟩ := Plan.begin_eq_ok h
  have hfresh : ∀ name worker, r.launch.workers.get? name = some worker → worker = .fresh := by
    intro name worker hw
    refine (Run.get?_staff_eq_some hw).resolve_right fun hold => ?_
    rw [show ({ r with walk := r.walk.dispatch } : Run μ σ).workers = _ from hworkers] at hold
    cases hold
  constructor
  · rintro name (⟨worker, hw, hwaits⟩ | ⟨job, hjob⟩)
    · split at hw
      · rw [hworkers] at hw
        cases hw
      · rw [hfresh name worker hw] at hwaits
        cases hwaits
    · obtain ⟨worker, hw, hjob⟩ := Option.bind_eq_some_iff.1 hjob
      split at hw
      · rw [hworkers] at hw
        cases hw
      · rw [hfresh name worker hw] at hjob
        cases hjob
  · intro name _
    split
    · rw [Run.step?, hplan]
    · show r.plan.graph.get? name = _
      rw [hplan]

theorem Plan.Reaches.undone {p : Plan μ} (hp : p.graph.Sound) {provider : Provider σ}
    {walker : Walker} {world : σ} {run : Run μ σ} (h : p.Reaches provider walker world run) :
    run.Undone p := by
  obtain ⟨cancelled, start, hbegin, hsteps⟩ := h
  induction hsteps with
  | refl => exact Plan.undone_begin hbegin
  | tail move before next ih =>
    exact ih.after_move ((Plan.sound_begin hp hbegin).1.steps before) next

namespace Run

variable {p : Plan μ} {provider : Provider σ} {r s t : Run μ σ} {name : String} {step : Step μ}
  {worker : Worker μ}

/-! ## Moves -/

theorem telling_decide (hs : r.step? name = some step) (hname : step.name = name) (attempt : Nat) :
    Telling r (r.decide name attempt) := by
  simp only [decide, hs]
  split
  · exact .nothing rfl rfl
  · next hdone =>
    split
    · exact telling_interrupt hs hname (by simpa using hdone)
    · exact .nothing rfl rfl

theorem telling_advance (provider : Provider σ) (hs : r.step? name = some step)
    (hname : step.name = name) (hopen : step.status.isDone = false) (job : Job (μ × Outcome)) :
    Telling r (r.advance provider name job) := by
  cases job with
  | done value =>
    obtain ⟨memo, outcome⟩ := value
    have halike := alike_setMemo hs hname memo
    have hcall := telling_endCall halike.found halike.named (halike.status ▸ hopen) outcome
    exact hcall.congr halike.journal.symm (view_setMemo hs hname memo).symm rfl rfl
  | ask request next =>
    rw [advance]
    generalize provider.respond r.world request = reply
    obtain ⟨world, result | message⟩ := reply
    · exact .nothing rfl rfl
    · exact (telling_endCall (r := { r with world }) hs hname hopen (.crash message)).congr
        rfl rfl rfl rfl
  | pause ms next => exact .nothing rfl rfl
  | callOff next => exact .nothing rfl rfl

theorem telling_of_work? (h : r.Undone p) (hw : r.workers.get? name = some worker)
    (hs : r.step? name = some step) (hname : step.name = name)
    (next : r.work? provider name = some s) : Telling r s := by
  have hopen := h.isDone_eq_false hs
  rw [waits_iff hw, job?_of_worker hw] at hopen
  simp only [work?, hw] at next
  cases hphase : worker.phase with
  | deciding =>
    simp only [hphase, Option.some.injEq] at next
    subst next
    exact telling_decide hs hname worker.attempt
  | yielding =>
    simp only [hphase, Option.some.injEq] at next
    subst next
    split
    · exact telling_interrupt hs hname (hopen (.inl (by rw [hphase]; rfl)))
    · exact .nothing rfl rfl
  | sleeping wake =>
    simp only [hphase, Option.ite_none_right_eq_some, Option.some.injEq] at next
    obtain ⟨-, rfl⟩ := next
    exact .nothing rfl rfl
  | queued =>
    simp only [hphase, Option.ite_none_right_eq_some, Option.some.injEq, call, hs] at next
    obtain ⟨-, rfl⟩ := next
    exact .nothing rfl rfl
  | advancing job =>
    simp only [hphase, Option.some.injEq] at next
    subst next
    exact telling_advance provider hs hname (hopen (.inr ⟨job, by rw [hphase]; rfl⟩)) job
  | pausing wake job =>
    simp only [hphase, Option.ite_none_right_eq_some, Option.some.injEq] at next
    obtain ⟨-, rfl⟩ := next
    exact .nothing rfl rfl
  | finished ok =>
    simp only [hphase] at next
    cases next

theorem telling_of_stop? (h : r.Undone p) (hw : r.workers.get? name = some worker)
    (hs : r.step? name = some step) (hname : step.name = name) (next : r.stop? name = some s) :
    Telling r s := by
  simp only [stop?, hw, Option.ite_none_right_eq_some, Bool.and_eq_true, Option.some.injEq] at next
  obtain ⟨⟨-, hlistens⟩, rfl⟩ := next
  have hwaits : r.Waits name := by
    rw [waits_iff hw]
    cases hphase : worker.phase with
    | sleeping _ => rfl
    | queued => rfl
    | _ =>
      rw [hphase] at hlistens
      cases hlistens
  have hopen := h.isDone_eq_false hs (.inl hwaits)
  exact (telling_interrupt (r := { r with slots := r.slots.leave name }) hs hname hopen).congr
    rfl rfl rfl rfl

/-- A move tells at most one change. -/
theorem telling_of_move? (hr : r.Sound p) (h : r.Undone p) {move : Move}
    (next : r.move? provider move = some s) : Telling r s := by
  cases move with
  | wait nanos =>
    cases next
    exact .nothing rfl rfl
  | cancel =>
    cases next
    exact .nothing rfl rfl
  | work name =>
    cases hw : r.workers.get? name with
    | none => simp [move?, work?, hw] at next
    | some worker =>
      obtain ⟨step, hs, hname⟩ := hr.exists_step hw
      exact telling_of_work? h hw hs hname next
  | stop name =>
    cases hw : r.workers.get? name with
    | none => simp [move?, stop?, hw] at next
    | some worker =>
      obtain ⟨step, hs, hname⟩ := hr.exists_step hw
      exact telling_of_stop? h hw hs hname next
  | settle name =>
    simp only [move?, settle?] at next
    split at next
    · cases next
      exact .nothing rfl rfl
    · cases next

/-! ## The end -/

/-- Failed steps are closed one by one, and those that are done already are left alone. -/
theorem tellings_closeFailed (hg : r.plan.graph.Sound) {names : List String}
    (hnode : names ⊆ r.plan.graph.dag.nodes) :
    Relation.ReflTransGen Telling r (names.foldl closeFailed r) := by
  induction names generalizing r with
  | nil => exact .refl
  | cons name names ih =>
    obtain ⟨hname, hrest⟩ := List.cons_subset.1 hnode
    obtain ⟨hcloses, -⟩ := closeFailed_spec hg hname
    refine .head ?_ (ih (hcloses.graph hg) (hcloses.dag ▸ hrest))
    obtain ⟨step, hs⟩ := (hg.mem_nodes_iff name).1 hname
    have hs : r.step? name = some step := hs
    rw [closeFailed, stepIs, hs]
    cases hdone : step.status.isDone with
    | true => exact .nothing (by simp [hdone]) (by simp [hdone])
    | false =>
      simp only [hdone, Bool.not_false, if_true]
      exact telling_assign hs (hg.named name step hs) hdone _

/-- Blocked steps are closed one by one, if they are not done. -/
theorem tellings_closeBlocked (hg : r.plan.graph.Sound) (failures : List String)
    {names : List String} (hnodup : names.Nodup)
    (hopen : ∀ name ∈ names, ∃ status, r.status? name = some status ∧ status.isDone = false) :
    Relation.ReflTransGen Telling r (names.foldl (closeBlocked failures) r) := by
  induction names generalizing r with
  | nil => exact .refl
  | cons name names ih =>
    obtain ⟨hnew, hrest⟩ := List.nodup_cons.1 hnodup
    obtain ⟨status, hstatus, hundone⟩ := hopen name List.mem_cons_self
    obtain ⟨step, hs, rfl⟩ := exists_step_of_status? hstatus
    obtain ⟨hcloses, -⟩ :=
      closeBlocked_spec hg failures ((hg.mem_nodes_iff name).2 ⟨step, hs⟩)
    have hfirst : Telling r (closeBlocked failures r name) :=
      telling_assign hs (hg.named name step hs) hundone _
    refine .head hfirst (ih (hcloses.graph hg) hrest fun m hm => ?_)
    have hne : m ∉ [name] := fun hmem => hnew (List.mem_singleton.1 hmem ▸ hm)
    rw [hcloses.status?_of_not_mem hne]
    exact hopen m (List.mem_cons_of_mem _ hm)

/-- So the end of a run tells its changes one by one, too, if blocked steps were not done before. -/
theorem tellings_close (hr : r.Sound p)
    (hopen : ∀ name ∈ r.walk.report.blocked,
      ∃ status, r.status? name = some status ∧ status.isDone = false) :
    Relation.ReflTransGen Telling r r.close := by
  have hnodup := hr.walk.nodup_settled
  rw [WalkReport.settled, List.append_assoc] at hnodup
  obtain ⟨hfnodup, hbnodup, hdisjoint⟩ := List.nodup_append'.1 hnodup.of_append_right
  have hnode : r.walk.report.failed ⊆ r.plan.graph.dag.nodes := by
    intro n hn
    rw [hr.dag, ← hr.walkDag]
    exact hr.walk.settled_subset (Walk.mem_settled_iff.2 (.inr (.inl hn)))
  obtain ⟨hcloses, -⟩ := foldl_closeFailed_spec hr.graph hfnodup hnode
  have hfailed := tellings_closeFailed hr.graph hnode
  generalize hmid : r.walk.report.failed.foldl closeFailed r = mid at hcloses hfailed
  have hclose : r.close = r.walk.report.blocked.foldl (closeBlocked mid.failures) mid := by
    rw [← hmid, close, hmid, hcloses.walk]
  rw [hclose]
  refine hfailed.trans (tellings_closeBlocked (hcloses.graph hr.graph) _ hbnodup fun n hn => ?_)
  rw [hcloses.status?_of_not_mem fun hn' => hdisjoint hn' hn]
  exact hopen n hn

end Run

end Rollout

import Rollout.Proofs.Plan.Moves
import Rollout.Proofs.Walk.Result

/-!
# The invariant of a run

Whatever the schedule, a run has one worker for every visit of its walk that is under way, and the
way a worker ends tells how its step stands.

* `Run.Sound`: the invariant. `Run.Sound.move` and `Plan.Reaches.sound`: every run has it.
* `Run.EndedWith`: the worker of a step has ended, well or badly. From then on the step stays as it
  is, by `Run.EndedWith.steps`.
* `Run.BrokeOver`: the sink broke down when it heard of a status.
-/

namespace Rollout

variable {μ σ : Type}

namespace Run

variable {r s : Run μ σ} {name : String}

/-! ## Ended workers -/

/-- The worker of the step has ended, well or badly, and the walk may have heard of it. -/
def EndedWith (r : Run μ σ) (name : String) (ok : Bool) : Prop :=
  (∃ attempt, r.workers.get? name = some ⟨attempt, .finished ok⟩) ∨
    name ∈ r.walk.report.visited ok

/-- The sink broke down over the event that told the status of the step. -/
def BrokeOver (r : Run μ σ) (name : String) (status : Status) : Prop :=
  ∃ last before, last :: before <:+ r.journal.reversed ∧
    (∃ moment, last.event = .stepChanged name status moment) ∧
    r.plan.sink.breaksAt ⟨r.journal.runId, last :: before⟩ = true

theorem BrokeOver.mono {status : Status} (h : r.BrokeOver name status)
    (hjournal : r.journal.reversed <:+ s.journal.reversed)
    (hid : s.journal.runId = r.journal.runId) (hsink : s.plan.sink = r.plan.sink) :
    s.BrokeOver name status := by
  obtain ⟨last, before, hsuffix, hevent, hbreaks⟩ := h
  rw [← hid, ← hsink] at hbreaks
  exact ⟨last, before, hsuffix.trans hjournal, hevent, hbreaks⟩

/-- The step is done and did not end well, or the sink broke down over its last status. -/
def Unwell (r : Run μ σ) (name : String) : Prop :=
  ∃ status, r.status? name = some status ∧
    (status.isDone = true ∧ status.isOk = false ∨ r.BrokeOver name status)

/-! ## The invariant -/

/-- What is true of every run of a plan. -/
structure Sound (p : Plan μ) (r : Run μ σ) : Prop where
  /-- Every node has its step. -/
  graph : r.plan.graph.Sound
  /-- The graph is that of the plan. -/
  dag : r.plan.graph.dag = p.graph.dag
  /-- The walk is one over the graph of the plan. -/
  walkDag : r.walk.dag = p.graph.dag
  walk : r.walk.Sound
  /-- The walk waits, unless it never began. -/
  saturated : r.broken = false → r.walk.Saturated
  cap : r.walk.cap ≠ some 0
  /-- Events go to the sink of the plan. -/
  sink : r.plan.sink = p.sink
  runId : r.journal.runId = p.id
  /-- Steps keep their actions. -/
  action : ∀ name step, r.step? name = some step →
    ∃ old, p.graph.get? name = some old ∧ step.action = old.action
  /-- There is a worker for every visit under way, and there are no others. -/
  staffed : ∀ name, name ∈ r.walk.inFlight ↔ ∃ worker, r.workers.get? name = some worker
  /-- A worker that ended well leaves a step that did. -/
  well : ∀ name, r.EndedWith name true →
    ∃ status, r.status? name = some status ∧ status.isOk = true
  /-- A worker that ended badly had a reason. -/
  unwell : ∀ name, r.EndedWith name false → r.Unwell name
  /-- A worker whose sink broke down has ended badly. -/
  broke : ∀ name status, r.BrokeOver name status →
    r.EndedWith name false ∧ r.status? name = some status

namespace Sound

variable {p : Plan μ}

/-- A worker has a step, under its own name. -/
theorem exists_step (hr : r.Sound p) {worker : Worker μ}
    (hw : r.workers.get? name = some worker) :
    ∃ step, r.step? name = some step ∧ step.name = name := by
  have hflight := (hr.staffed name).2 ⟨worker, hw⟩
  have hnode := hr.walk.dispatched_subset (Walk.mem_inFlight_iff.1 hflight).1
  rw [hr.walkDag, ← hr.dag] at hnode
  obtain ⟨step, hs⟩ := (hr.graph.mem_nodes_iff name).1 hnode
  exact ⟨step, hs, hr.graph.named name step hs⟩

/-- No worker is left for a step whose visit has ended. -/
theorem worker_of_settled (hr : r.Sound p) (h : name ∈ r.walk.report.settled) :
    r.workers.get? name = none := by
  cases hw : r.workers.get? name with
  | none => rfl
  | some worker =>
    exact absurd h (Walk.mem_inFlight_iff.1 ((hr.staffed name).2 ⟨worker, hw⟩)).2

/-- Where a worker ended, there is either no worker any more or one that does nothing. -/
theorem finished_of_ended (hr : r.Sound p) {ok : Bool} (h : r.EndedWith name ok)
    {worker : Worker μ} (hw : r.workers.get? name = some worker) :
    worker.phase = .finished ok := by
  rcases h with ⟨attempt, h⟩ | h
  · rw [hw] at h
    cases h
    rfl
  · rw [hr.worker_of_settled (Walk.mem_settled_of_visited h)] at hw
    cases hw

end Sound

/-! ## Workers for new visits -/

theorem get?_staff (r : Run μ σ) (m : String) :
    r.staff.workers.get? m =
      if m ∈ r.walk.inFlight then some ((r.workers.get? m).getD .fresh)
      else r.workers.get? m := by
  have key : ∀ (names : List String) (workers : Table (Worker μ)),
      (names.foldl (fun workers name => if workers.contains name then workers
        else workers.insert name .fresh) workers).get? m =
        if m ∈ names then some ((workers.get? m).getD .fresh) else workers.get? m := by
    intro names
    induction names with
    | nil => intro workers; rfl
    | cons n names ih =>
      intro workers
      rw [List.foldl_cons, ih]
      by_cases hc : workers.contains n = true
      · rw [if_pos hc]
        by_cases hmn : m = n
        · subst hmn
          obtain ⟨worker, hw⟩ := Table.contains_iff.1 hc
          simp [hw]
        · simp [hmn]
      · rw [if_neg hc, Table.get?_insert]
        by_cases hmn : m = n
        · subst hmn
          have hnone : workers.get? m = none := by
            cases hw : workers.get? m with
            | none => rfl
            | some worker => exact absurd (Table.contains_iff.2 ⟨worker, hw⟩) hc
          simp [hnone]
        · simp [hmn]
  exact key r.walk.inFlight r.workers

/-- A worker that is there keeps its place; only new visits get new ones. -/
theorem get?_staff_of_some {worker : Worker μ} (h : r.workers.get? name = some worker) :
    r.staff.workers.get? name = some worker := by
  rw [get?_staff, h]
  exact ite_self _

theorem get?_staff_eq_some {worker : Worker μ} (h : r.staff.workers.get? name = some worker) :
    worker = .fresh ∨ r.workers.get? name = some worker := by
  rw [get?_staff] at h
  cases hw : r.workers.get? name with
  | none =>
    rw [hw] at h
    split at h
    · cases h
      exact .inl rfl
    · cases h
  | some old =>
    rw [hw] at h
    rw [Option.getD_some, ite_self] at h
    exact .inr h

theorem staffed_staff (h : ∀ m worker, r.workers.get? m = some worker → m ∈ r.walk.inFlight)
    (m : String) : m ∈ r.walk.inFlight ↔ ∃ worker, r.staff.workers.get? m = some worker := by
  rw [get?_staff]
  by_cases hm : m ∈ r.walk.inFlight
  · simp [hm]
  · simp only [hm, if_false, false_iff, not_exists]
    exact fun worker hw => hm (h m worker hw)

/-! ## Moves keep the invariant -/

/-- Ended workers stay where they are while another one has its turn. -/
theorem endedWith_of_frame (hframe : Frame name r s) {m : String} (hm : m ≠ name) {ok : Bool} :
    s.EndedWith m ok ↔ r.EndedWith m ok := by
  rw [EndedWith, EndedWith, hframe.walk, hframe.worker_of_ne m hm]

theorem status?_of_frame (hframe : Frame name r s) {m : String} (hm : m ≠ name) :
    s.status? m = r.status? m := by
  rw [status?, status?, hframe.step_of_ne m hm]

theorem Unwell.mono (h : r.Unwell name) (hstatus : s.status? name = r.status? name)
    (hjournal : r.journal.reversed <:+ s.journal.reversed)
    (hid : s.journal.runId = r.journal.runId) (hsink : s.plan.sink = r.plan.sink) :
    s.Unwell name := by
  obtain ⟨status, hs, h⟩ := h
  exact ⟨status, hstatus.trans hs, h.imp_right fun h => h.mono hjournal hid hsink⟩

/-- What was told last, when the sink broke down over it or over something before. -/
theorem BrokeOver.of_told {old status : Status} {m : String} {new : Status}
    (htold : Told r s name old new) (hid : s.journal.runId = r.journal.runId)
    (hsink : s.plan.sink = r.plan.sink) (h : s.BrokeOver m status) :
    r.BrokeOver m status ∨
      m = name ∧ status = new ∧ old ≠ new ∧ r.plan.sink.breaksAt s.journal = true := by
  obtain ⟨last, before, hsuffix, ⟨moment, hevent⟩, hbreaks⟩ := h
  rw [hid, hsink] at hbreaks
  rw [Told] at htold
  by_cases hne : old = new
  · rw [if_pos hne] at htold
    rw [htold] at hsuffix
    exact .inl ⟨last, before, hsuffix, ⟨moment, hevent⟩, hbreaks⟩
  · rw [if_neg hne] at htold
    rw [htold, Journal.record] at hsuffix
    rcases List.suffix_cons_iff.1 hsuffix with heq | hsuffix
    · obtain ⟨rfl, rfl⟩ := List.cons.inj heq
      cases hevent
      refine .inr ⟨rfl, rfl, hne, ?_⟩
      rw [htold]
      exact hbreaks
    · exact .inl ⟨last, before, hsuffix, ⟨moment, hevent⟩, hbreaks⟩

theorem BrokeOver.of_told_self {old new : Status} (htold : Told r s name old new) (hne : old ≠ new)
    (hid : s.journal.runId = r.journal.runId) (hsink : s.plan.sink = r.plan.sink)
    (hbreaks : r.plan.sink.breaksAt s.journal = true) : s.BrokeOver name new := by
  rw [Told, if_neg hne] at htold
  refine ⟨r.journal.envelope r.now (.stepChanged name new r.now), r.journal.reversed, ?_,
    ⟨r.now, rfl⟩, ?_⟩
  · rw [htold]
    exact List.suffix_refl _
  · rw [hid, hsink]
    rw [htold] at hbreaks
    exact hbreaks

namespace Sound

variable {p : Plan μ}

theorem passed (hr : r.Sound p) (plan : s.plan = r.plan) (walk : s.walk = r.walk)
    (workers : s.workers = r.workers) (journal : s.journal = r.journal)
    (broken : s.broken = r.broken) : s.Sound p := by
  obtain ⟨plan', walk', workers', slots', world', cancelled', broken', clock', journal', calls'⟩ := s
  cases plan
  cases walk
  cases workers
  cases journal
  cases broken
  exact
    { graph := hr.graph
      dag := hr.dag
      walkDag := hr.walkDag
      walk := hr.walk
      saturated := hr.saturated
      cap := hr.cap
      sink := hr.sink
      runId := hr.runId
      action := hr.action
      staffed := hr.staffed
      well := hr.well
      unwell := hr.unwell
      broke := hr.broke }

variable {worker : Worker μ} {step : Step μ}

/-- The worker that has a turn has not ended. -/
theorem ne_of_ended (hr : r.Sound p) (hw : r.workers.get? name = some worker)
    (active : ∀ ok, worker.phase ≠ .finished ok) {m : String} {ok : Bool}
    (h : r.EndedWith m ok) : m ≠ name := by
  rintro rfl
  exact active ok (hr.finished_of_ended h hw)

/-- A worker that has ended after a turn had ended before, or ends with this turn. -/
theorem endedWith_of_turn (hr : r.Sound p) (hw : r.workers.get? name = some worker)
    (hframe : Frame name r s) {attempt : Nat} {phase' : Phase μ}
    (hw' : s.workers.get? name = some ⟨attempt, phase'⟩) {m : String} {ok : Bool}
    (h : s.EndedWith m ok) : m ≠ name ∧ r.EndedWith m ok ∨ m = name ∧ phase' = .finished ok := by
  by_cases hm : m = name
  · subst hm
    refine .inr ⟨rfl, ?_⟩
    rcases h with ⟨_, h⟩ | h
    · rw [hw'] at h
      cases h
      rfl
    · rw [hframe.walk] at h
      rw [hr.worker_of_settled (Walk.mem_settled_of_visited h)] at hw
      cases hw
  · exact .inl ⟨hm, (endedWith_of_frame hframe hm).1 h⟩

theorem graph_of_frame (hr : r.Sound p) (hs : r.step? name = some step)
    (hframe : Frame name r s) : s.plan.graph.Sound where
  wellFormed := hframe.dag ▸ hr.graph.wellFormed
  mem_nodes_iff n := by
    rw [hframe.dag, hr.graph.mem_nodes_iff n]
    by_cases hn : n = name
    · subst hn
      obtain ⟨step', hs', -, -⟩ := hframe.step step hs
      exact ⟨fun _ => ⟨step', hs'⟩, fun _ => ⟨step, hs⟩⟩
    · have h := hframe.step_of_ne n hn
      rw [step?, step?] at h
      rw [h]
  named n found hn := by
    by_cases h : n = name
    · subst h
      obtain ⟨step', hs', hname, -⟩ := hframe.step step hs
      obtain rfl : found = step' := Option.some.inj (hn.symm.trans hs')
      exact hname.trans (hr.graph.named n step hs)
    · exact hr.graph.named n found ((hframe.step_of_ne n h).symm.trans hn)

theorem action_of_frame (hr : r.Sound p) (hs : r.step? name = some step)
    (hframe : Frame name r s) (m : String) (found : Step μ) (hm : s.step? m = some found) :
    ∃ old, p.graph.get? m = some old ∧ found.action = old.action := by
  by_cases h : m = name
  · subst h
    obtain ⟨step', hs', -, haction⟩ := hframe.step step hs
    obtain rfl : found = step' := Option.some.inj (hm.symm.trans hs')
    obtain ⟨old, hold, haction'⟩ := hr.action m step hs
    exact ⟨old, hold, haction.trans haction'⟩
  · exact hr.action m found ((hframe.step_of_ne m h).symm.trans hm)

theorem turned (hr : r.Sound p) (hw : r.workers.get? name = some worker)
    (hs : r.step? name = some step) (active : ∀ ok, worker.phase ≠ .finished ok)
    (turn : Turn r s name worker.phase step) : s.Sound p := by
  obtain ⟨hframe, attempt, phase', status, hw', hstatus, heffect⟩ := turn
  have hended : ∀ {m ok}, s.EndedWith m ok →
      m ≠ name ∧ r.EndedWith m ok ∨ m = name ∧ phase' = .finished ok :=
    fun h => hr.endedWith_of_turn hw hframe hw' h
  refine
    { graph := hr.graph_of_frame hs hframe
      dag := hframe.dag.trans hr.dag
      walkDag := hframe.walk ▸ hr.walkDag
      walk := hframe.walk ▸ hr.walk
      saturated := fun hb => hframe.walk ▸ hr.saturated (hframe.broken ▸ hb)
      cap := hframe.walk ▸ hr.cap
      sink := hframe.sink.trans hr.sink
      runId := hframe.runId.trans hr.runId
      action := hr.action_of_frame hs hframe
      staffed := fun m => ?_
      well := fun m h => ?_
      unwell := fun m h => ?_
      broke := fun m told h => ?_ }
  · rw [hframe.walk, hr.staffed m]
    by_cases hm : m = name
    · subst hm
      exact ⟨fun _ => ⟨_, hw'⟩, fun _ => ⟨_, hw⟩⟩
    · rw [hframe.worker_of_ne m hm]
  · rcases hended h with ⟨hm, h⟩ | ⟨rfl, rfl⟩
    · rw [status?_of_frame hframe hm]
      exact hr.well m h
    · rcases heffect.of_finished with ⟨-, hok⟩ | ⟨hfalse, -⟩
      · exact ⟨status, hstatus, hok⟩
      · cases hfalse
  · rcases hended h with ⟨hm, h⟩ | ⟨rfl, rfl⟩
    · exact (hr.unwell m h).mono (status?_of_frame hframe hm) hframe.journal hframe.runId
        hframe.sink
    · rcases heffect.of_finished with ⟨htrue, -⟩ | ⟨-, hdone | ⟨hne, hbreaks⟩⟩
      · cases htrue
      · exact ⟨status, hstatus, .inl hdone⟩
      · exact ⟨status, hstatus,
          .inr (.of_told_self heffect.told hne hframe.runId hframe.sink hbreaks)⟩
  · rcases BrokeOver.of_told heffect.told hframe.runId hframe.sink h with
      hold | ⟨rfl, rfl, hne, hbreaks⟩
    · obtain ⟨hend, hst⟩ := hr.broke m told hold
      have hm := hr.ne_of_ended hw active hend
      exact ⟨(endedWith_of_frame hframe hm).2 hend, (status?_of_frame hframe hm).trans hst⟩
    · refine ⟨.inl ⟨attempt, ?_⟩, hstatus⟩
      rw [hw', heffect.of_breaks hne hbreaks]

end Sound

/-! ## The walk takes the end of a worker -/

theorem Sound.endedWith_settled {p : Plan μ} (hr : r.Sound p) {attempt : Nat} {ok : Bool}
    (hw : r.workers.get? name = some ⟨attempt, .finished ok⟩)
    (hafter : s = staff { r with
      workers := r.workers.erase name, walk := r.walk.settle name ok }) {m : String}
    {how : Bool} : s.EndedWith m how ↔ r.EndedWith m how := by
  subst hafter
  constructor
  · rintro (⟨_, h⟩ | h)
    · rcases get?_staff_eq_some h with hfresh | h
      · cases hfresh
      · rw [Table.get?_erase] at h
        split at h
        · cases h
        · exact .inl ⟨_, h⟩
    · rcases (Walk.mem_visited_settle_iff _ _ _ _ _).1 h with h | ⟨rfl, rfl⟩
      · exact .inr h
      · exact .inl ⟨attempt, hw⟩
  · intro h
    by_cases hm : m = name
    · subst hm
      have hphase := hr.finished_of_ended h hw
      cases hphase
      exact .inr ((Walk.mem_visited_settle_iff _ _ _ _ _).2 (.inr ⟨rfl, rfl⟩))
    · rcases h with ⟨attempt', h⟩ | h
      · refine .inl ⟨attempt', get?_staff_of_some ?_⟩
        rw [Table.get?_erase, if_neg hm]
        exact h
      · exact .inr ((Walk.mem_visited_settle_iff _ _ _ _ _).2 (.inl h))

theorem Sound.settled {p : Plan μ} (hr : r.Sound p) {attempt : Nat} {ok : Bool}
    (hw : r.workers.get? name = some ⟨attempt, .finished ok⟩)
    (hafter : s = staff { r with
      workers := r.workers.erase name, walk := r.walk.settle name ok }) : s.Sound p := by
  have hflight := (hr.staffed name).2 ⟨_, hw⟩
  have hended : ∀ m how, s.EndedWith m how ↔ r.EndedWith m how :=
    fun _ _ => hr.endedWith_settled hw hafter
  subst hafter
  exact
    { graph := hr.graph
      dag := hr.dag
      walkDag := (Walk.dag_settle _ _ _).trans hr.walkDag
      walk := hr.walk.settle hflight ok
      saturated := fun _ => Walk.saturated_dispatch _
      cap := by
        rw [staff, Walk.cap_settle]
        exact hr.cap
      sink := hr.sink
      runId := hr.runId
      action := hr.action
      staffed := by
        refine staffed_staff
          (r := { r with workers := r.workers.erase name, walk := r.walk.settle name ok })
          fun m worker hm => ?_
        rw [Table.get?_erase] at hm
        split at hm
        · cases hm
        · next hne =>
          exact hr.walk.mem_inFlight_settle hflight ((hr.staffed m).2 ⟨worker, hm⟩) hne ok
      well := fun m h => hr.well m ((hended m true).1 h)
      unwell := fun m h => hr.unwell m ((hended m false).1 h)
      broke := fun m status h =>
        ⟨(hended m false).2 (hr.broke m status h).1, (hr.broke m status h).2⟩ }

/-- Every move keeps the invariant. -/
theorem Sound.move {p : Plan μ} (hr : r.Sound p) {provider : Provider σ} {move : Move}
    (h : r.move? provider move = some s) : s.Sound p := by
  cases moved_of_move? (fun _ _ hw => hr.exists_step hw) h with
  | passed plan walk workers journal _ broken _ =>
    exact hr.passed plan walk workers journal broken
  | turned working found _ active turn => exact hr.turned working found active turn
  | settled finished after => exact hr.settled finished after

/-- Where a worker ended, nothing changes any more. -/
theorem EndedWith.move {p : Plan μ} (hr : r.Sound p) {provider : Provider σ} {move : Move}
    (h : r.move? provider move = some s) {ok : Bool} (hend : r.EndedWith name ok) :
    s.EndedWith name ok ∧ s.step? name = r.step? name := by
  cases moved_of_move? (fun _ _ hw => hr.exists_step hw) h with
  | passed plan walk workers _ _ _ _ =>
    refine ⟨?_, by rw [step?, step?, plan]⟩
    rw [EndedWith, walk, workers]
    exact hend
  | turned working _ _ active turn =>
    have hne := hr.ne_of_ended working active hend
    exact ⟨(endedWith_of_frame turn.frame hne).2 hend, turn.frame.step_of_ne name hne⟩
  | settled finished after =>
    refine ⟨(hr.endedWith_settled finished after).2 hend, ?_⟩
    rw [after]
    rfl

theorem Sound.steps {p : Plan μ} (hr : r.Sound p) {provider : Provider σ}
    (h : Steps provider r s) : s.Sound p := by
  induction h with
  | refl => exact hr
  | tail _ _ next ih => exact ih.move next

theorem EndedWith.steps {p : Plan μ} (hr : r.Sound p) {provider : Provider σ}
    (h : Steps provider r s) {ok : Bool} (hend : r.EndedWith name ok) :
    s.EndedWith name ok ∧ s.step? name = r.step? name := by
  induction h with
  | refl => exact ⟨hend, rfl⟩
  | tail _ before next ih =>
    obtain ⟨hmid, hsame⟩ := ih
    obtain ⟨hlast, hstep⟩ := hmid.move (hr.steps before) next
    exact ⟨hlast, hstep.trans hsame⟩

end Run

/-! ## The beginning -/

/-- A run that has begun is the prepared one, announced, with the first workers unless the sink
broke down over that. -/
theorem Plan.begin_eq_ok {p : Plan μ} {walker : Walker} {world : σ} {cancelled : Bool}
    {start : Run μ σ} (h : p.begin walker world cancelled = .ok start) :
    ∃ r : Run μ σ, r.plan = { p with executed := true } ∧
      r.walk = { dag := p.graph.dag, cap := walker.cap } ∧ r.workers = .empty ∧ r.world = world ∧
      r.calls = [] ∧
      (∃ moment, r.journal = Journal.record { runId := p.id } moment
        (.planStarted p.description p.keys)) ∧
      start = if r.broken then r else r.launch := by
  rw [Plan.begin] at h
  split at h
  · cases h
  · exact ⟨_, rfl, rfl, rfl, rfl, rfl, ⟨_, rfl⟩, (Except.ok.inj h).symm⟩

/-- A run all of whose workers are fresh. -/
theorem Run.sound_of_fresh {p : Plan μ} (hp : p.graph.Sound) {r : Run μ σ}
    (hplan : r.plan = { p with executed := true }) (hdag : r.walk.dag = p.graph.dag)
    (hwalk : r.walk.Sound) (hreport : r.walk.report = {})
    (hsaturated : r.broken = false → r.walk.Saturated) (hcap : r.walk.cap ≠ some 0)
    (hjournal : ∃ moment, r.journal = Journal.record { runId := p.id } moment
      (.planStarted p.description p.keys))
    (hstaffed : ∀ name, name ∈ r.walk.inFlight ↔ ∃ worker, r.workers.get? name = some worker)
    (hfresh : ∀ name worker, r.workers.get? name = some worker → worker = .fresh) :
    r.Sound p ∧ ∀ name ok, ¬ r.EndedWith name ok := by
  have hnone : ∀ name ok, ¬ r.EndedWith name ok := by
    rintro name ok (⟨_, h⟩ | h)
    · cases hfresh name _ h
    · rw [hreport] at h
      cases ok <;> exact List.not_mem_nil h
  obtain ⟨moment, hjournal⟩ := hjournal
  refine ⟨?_, hnone⟩
  exact
    { graph := hplan ▸ hp
      dag := hplan ▸ rfl
      walkDag := hdag
      walk := hwalk
      saturated := hsaturated
      cap := hcap
      sink := hplan ▸ rfl
      runId := hjournal ▸ rfl
      action := fun name step hs => by
        rw [Run.step?, hplan] at hs
        exact ⟨step, hs, rfl⟩
      staffed := hstaffed
      well := fun name h => absurd h (hnone name true)
      unwell := fun name h => absurd h (hnone name false)
      broke := by
        rintro name status ⟨last, before, hsuffix, ⟨told, hevent⟩, -⟩
        -- All that has been told is that the plan started.
        rw [hjournal, Journal.record] at hsuffix
        have hlast : last ∈ [Journal.envelope { runId := p.id } moment
            (.planStarted p.description p.keys)] := hsuffix.subset List.mem_cons_self
        rw [List.mem_singleton.1 hlast] at hevent
        cases hevent }

/-- When a run begins, it has the invariant, its steps are those of the plan, nothing has been
called, and no worker has ended. -/
theorem Plan.sound_begin {p : Plan μ} (hp : p.graph.Sound) {walker : Walker} {world : σ}
    {cancelled : Bool} {start : Run μ σ} (h : p.begin walker world cancelled = .ok start) :
    start.Sound p ∧ start.plan.graph = p.graph ∧ start.calls = [] ∧
      ∀ name ok, ¬ start.EndedWith name ok := by
  obtain ⟨r, hplan, hwalk, hworkers, -, hcalls, hjournal, rfl⟩ := Plan.begin_eq_ok h
  have hempty : ∀ name worker, r.workers.get? name ≠ some worker := by
    intro name worker hw
    rw [hworkers] at hw
    cases hw
  cases hbroken : r.broken with
  | true =>
    rw [if_pos rfl]
    have hflight : r.walk.inFlight = [] := by rw [hwalk]; rfl
    obtain ⟨hsound, hnone⟩ := Run.sound_of_fresh hp hplan (by rw [hwalk])
      (hwalk ▸ Walk.sound_fresh hp.wellFormed walker.cap) (by rw [hwalk])
      (fun hb => by rw [hbroken] at hb; cases hb) (hwalk ▸ walker.cap_ne_zero) hjournal
      (fun name => by simp [hflight, hempty]) (fun name worker hw => absurd hw (hempty name worker))
    exact ⟨hsound, by rw [hplan], hcalls, hnone⟩
  | false =>
    rw [if_neg Bool.false_ne_true]
    have hstart : r.walk.dispatch = Walk.start p.graph.dag walker.cap := by rw [hwalk]; rfl
    have hfresh : ∀ name worker, r.launch.workers.get? name = some worker → worker = .fresh :=
      fun name worker hw => (Run.get?_staff_eq_some hw).resolve_right (hempty name worker)
    obtain ⟨hsound, hnone⟩ := Run.sound_of_fresh (r := r.launch) hp hplan
      ((Walk.dag_dispatch _).trans (by rw [hwalk]))
      (by
        show r.walk.dispatch.Sound
        rw [hstart]
        exact Walk.sound_start hp.wellFormed walker.cap)
      ((Walk.report_dispatch _).trans (by rw [hwalk]))
      (fun _ => Walk.saturated_dispatch _)
      (by
        show r.walk.dispatch.cap ≠ some 0
        rw [Walk.cap_dispatch, hwalk]
        exact walker.cap_ne_zero)
      hjournal
      (Run.staffed_staff (r := { r with walk := r.walk.dispatch })
        fun name worker hw => absurd hw (hempty name worker))
      hfresh
    exact ⟨hsound, by show r.plan.graph = _; rw [hplan], hcalls, hnone⟩

/-- Every run that a plan can come to has the invariant. -/
theorem Plan.Reaches.sound {p : Plan μ} (hp : p.graph.Sound) {provider : Provider σ}
    {walker : Walker} {world : σ} {run : Run μ σ} (h : p.Reaches provider walker world run) :
    run.Sound p := by
  obtain ⟨cancelled, start, hbegin, hsteps⟩ := h
  exact (Plan.sound_begin hp hbegin).1.steps hsteps

end Rollout

import Rollout.Proofs.Plan.Chronicle

/-!
# Steps that do not know each other

If the actions of a step and of all that it depends on have nothing to do with anybody else, then
how the step ends is a matter of these actions. Other steps can fail, break down or take their time:
nothing of that reaches it. What all steps have in common is the sink, so it must not come between
a step and its course.

* `Action.Ran.unique`: the calls of a secluded action end with one status.
* `Run.Undisturbed`: the sink breaks down over no status that would change the course of a step.
* `Run.Concluded`: a run at its end, nobody having called it off.
* `Plan.AgreeOn`: a step, and what it depends on, are secluded and begin alike in two plans.
* `Run.Concluded.ends_alike`: such a step ends alike in two runs that leave it undisturbed.
* `Plan.status_isolated`: so it does wherever no sink breaks down.
-/

namespace Rollout

variable {μ σ τ : Type}

/-! ## Secluded actions -/

namespace Job

variable {α : Type} {job rest : Job α} {exchanges : List Exchange}

/-- All that is left of a secluded job is secluded. -/
theorem Went.isSecluded (h : job.Went exchanges rest) (hjob : job.IsSecluded) :
    rest.IsSecluded := by
  induction h with
  | start => exact hjob
  | ask before result ih => cases ih
  | pause before ih =>
    cases ih with
    | pause rest => exact rest
  | callOff before ih => cases ih

/-- A secluded job ends with one value. -/
theorem IsSecluded.eq_of_endsWith (h : job.IsSecluded) {value value' : α}
    (hends : job.EndsWith value) (hends' : job.EndsWith value') : value = value' := by
  induction h with
  | done =>
    cases hends
    cases hends'
    rfl
  | pause rest ih =>
    cases hends with
    | pause hends =>
      cases hends' with
      | pause hends' => exact ih hends hends'

end Job

/-- No call of the action asks anything or calls the run off. -/
def Action.IsSecluded (action : Action μ) : Prop :=
  ∀ memo status, (action.advance memo status).IsSecluded

namespace Action.Ran

variable {action : Action μ} {first memo memo' : μ} {start status status' : Status}
  {calls calls' : List CallRecord}

/-- As many calls have left the same. -/
theorem eq_of_length_eq (hsecluded : action.IsSecluded) (h : action.Ran first start calls memo status)
    (h' : action.Ran first start calls' memo' status') (hlength : calls.length = calls'.length) :
    memo = memo' ∧ status = status' := by
  induction h generalizing calls' memo' status' with
  | none =>
    cases h' with
    | none => exact ⟨rfl, rfl⟩
    | returned => cases hlength
    | crashed => cases hlength
  | returned before isOpen went ih =>
    cases h' with
    | none => cases hlength
    | returned before' isOpen' went' =>
      obtain ⟨rfl, rfl⟩ := ih before' (Nat.succ.inj hlength)
      cases (hsecluded _ _).eq_of_endsWith (went.endsWith (.done _)) (went'.endsWith (.done _))
      exact ⟨rfl, rfl⟩
    | crashed before' isOpen' went' message => cases went'.isSecluded (hsecluded _ _)
  | crashed before isOpen went message ih => cases went.isSecluded (hsecluded _ _)

/-- What fewer calls have left is not done, or there would be no more of them. -/
theorem isOpen_of_length_lt (hsecluded : action.IsSecluded)
    (h : action.Ran first start calls memo status)
    (h' : action.Ran first start calls' memo' status') (hlength : calls.length < calls'.length) :
    status.isDone = false := by
  induction h' with
  | none => cases hlength
  | returned before isOpen went ih | crashed before isOpen went message ih =>
    rcases Nat.lt_or_eq_of_le (Nat.le_of_lt_succ hlength) with hlt | heq
    · exact ih hlt
    · rw [(h.eq_of_length_eq hsecluded before heq).2]
      exact isOpen

/-- Where the calls end with something done, they end alike. -/
theorem unique (hsecluded : action.IsSecluded) (h : action.Ran first start calls memo status)
    (h' : action.Ran first start calls' memo' status') (hdone : status.isDone = true)
    (hdone' : status'.isDone = true) : status = status' := by
  rcases Nat.lt_trichotomy calls.length calls'.length with hlt | heq | hlt
  · rw [h.isOpen_of_length_lt hsecluded h' hlt] at hdone
    cases hdone
  · exact (h.eq_of_length_eq hsecluded h' heq).2
  · rw [h'.isOpen_of_length_lt hsecluded h hlt] at hdone'
    cases hdone'

end Action.Ran

namespace Run

/-! ## One run -/

/-- The sink comes between no step and its course: it did not break down over a status from which
the step goes on, nor over the good end of a step that it depends on. -/
structure Undisturbed (p : Plan μ) (r : Run μ σ) (name : String) : Prop where
  own : ∀ status, r.BrokeOver name status → status.isDone = true
  below : ∀ m, p.graph.dag.Path name m → ∀ status, r.BrokeOver m status →
    status.isDone = true ∧ status.isOk = false

theorem Undisturbed.of_path {p : Plan μ} {r : Run μ σ} {name m : String} (h : r.Undisturbed p name)
    (hm : p.graph.dag.Path name m) : r.Undisturbed p m where
  own status hbroke := (h.below m hm status hbroke).1
  below n hn := h.below n (hm.trans hn)

/-- A run at its end with a report, nobody having called it off, with the calls of its steps. -/
structure Concluded (p : Plan μ) (last run : Run μ (Recorded σ)) (report : PlanReport)
    (history : String → List CallRecord) : Prop where
  graph : p.graph.Sound
  sound : last.Sound p
  done : last.IsDone
  finished : Finished last run report
  uncancelled : last.cancelled = false
  called : ∀ name first, p.graph.get? name = some first → last.Called first name (history name)

namespace Concluded

variable {p : Plan μ} {last run : Run μ (Recorded σ)} {report : PlanReport}
  {history : String → List CallRecord} {n : String}
  (h : Concluded p last run report history)
include h

/-- A step that was visited is done, and it was completed if it is well, unless the sink came
between. -/
theorem exists_status (hown : ∀ status, run.BrokeOver n status → status.isDone = true)
    (hn : n ∈ last.walk.dispatched) :
    ∃ status, last.status? n = some status ∧ run.status? n = some status ∧
      status.isDone = true ∧ ((∀ status, run.BrokeOver n status → status.isOk = false) →
        (n ∈ last.walk.report.completed ↔ status.isOk = true)) := by
  obtain ⟨ok, hvisited⟩ := exists_visited h.sound h.done hn
  cases ok with
  | true =>
    obtain ⟨status, hstatus, hok⟩ := h.sound.well n (.inr hvisited)
    refine ⟨status, hstatus, ?_, (Status.isDone_iff status).2 (.inl hok), fun _ =>
      iff_of_true hvisited hok⟩
    rw [status?, h.finished.step?_of_completed h.sound hvisited]
    exact hstatus
  | false =>
    obtain ⟨status, hstatus, hrun, hreason⟩ := h.finished.exists_status_of_failed h.sound hvisited
    rw [← h.finished.brokeOver_iff] at hreason
    have hdone : status.isDone = true := hreason.elim And.left (hown status)
    rw [lastFailed, if_pos hdone] at hrun
    refine ⟨status, hstatus, hrun, hdone, fun hquiet => iff_of_false (fun hn => ?_) ?_⟩
    · exact h.sound.walk.not_mem_failed_of_completed hn hvisited
    · rw [hreason.elim And.right (hquiet status)]
      exact Bool.false_ne_true

/-- It stands where its calls have left it. -/
theorem exists_ran (hown : ∀ status, run.BrokeOver n status → status.isDone = true)
    (hn : n ∈ last.walk.dispatched) {first : Step μ} (hfirst : p.graph.get? n = some first) :
    ∃ memo status, first.action.Ran first.memo first.status (history n) memo status ∧
      run.status? n = some status ∧ status.isDone = true := by
  obtain ⟨status, hlast, hrun, hdone, -⟩ := h.exists_status hown hn
  obtain ⟨ok, hvisited⟩ := exists_visited h.sound h.done hn
  have hended : last.EndedWith n ok := .inr hvisited
  obtain ⟨memo, status', hran, same | ⟨hcancelled, -⟩⟩ :=
    (h.called n first hfirst).of_idle (hended.idle h.sound).2
  · obtain rfl := Option.some.inj (hlast.symm.trans same)
    exact ⟨memo, status, hran, hrun, hdone⟩
  · rw [h.uncancelled] at hcancelled
    cases hcancelled

end Concluded

end Run

/-- What a plan has come to at its end. -/
theorem Plan.Ends.exists_concluded {p : Plan μ} (hp : p.graph.Sound) {provider : Provider σ}
    {walker : Walker} {world : σ} {run : Run μ σ} {report : PlanReport}
    (h : p.Ends provider walker world run report) (hcancelled : run.cancelled = false) :
    ∃ last exchanges history, Run.Concluded p last (run.noted exchanges) report history := by
  obtain ⟨exchanges, last, hreaches, hdone, hfinish⟩ := h.recorded
  obtain ⟨history, hchronicle⟩ := hreaches.exists_history
  have hlast := hreaches.sound hp
  have hfinished := hlast.finished hfinish
  exact ⟨last, exchanges, history, hp, hlast, hdone, hfinished,
    hfinished.cancelled.symm.trans hcancelled, fun _ _ => hchronicle.called hp⟩

/-- A sink that never breaks down disturbs nobody. -/
theorem Plan.Ends.undisturbed {p : Plan μ} (hp : p.graph.Sound) {provider : Provider σ}
    {walker : Walker} {world : σ} {run : Run μ σ} {report : PlanReport}
    (h : p.Ends provider walker world run report)
    (hquiet : ∀ journal, p.sink.breaksAt journal = false) (name : String) :
    run.Undisturbed p name := by
  obtain ⟨last, hreaches, -, hfinish⟩ := h
  have hlast := hreaches.sound hp
  have hnot : ∀ n status, ¬ run.BrokeOver n status := fun n status hbroke => by
    obtain ⟨_, _, _, _, hbreaks⟩ := ((hlast.finished hfinish).brokeOver_iff n status).1 hbroke
    rw [hlast.sink, hquiet] at hbreaks
    cases hbreaks
  exact ⟨fun status hbroke => absurd hbroke (hnot name status),
    fun m _ status hbroke => absurd hbroke (hnot m status)⟩

/-! ## Two runs -/

/-- A step and all that it depends on begin alike in two plans, and their actions are secluded. -/
def Plan.AgreeOn (p q : Plan μ) (name : String) : Prop :=
  ∀ n, n = name ∨ p.graph.dag.Path name n → ∀ first second, p.graph.get? n = some first →
    q.graph.get? n = some second → first.action.IsSecluded ∧ second.action = first.action ∧
      second.memo = first.memo ∧ second.status = first.status

theorem Plan.AgreeOn.of_path {p q : Plan μ} {name m : String} (h : p.AgreeOn q name)
    (hm : p.graph.dag.Path name m) : p.AgreeOn q m := by
  rintro n (rfl | hn)
  · exact h n (.inr hm)
  · exact h n (.inr (hm.trans hn))

namespace Run.Concluded

variable {p q : Plan μ} {last run : Run μ (Recorded σ)} {last' run' : Run μ (Recorded τ)}
  {report report' : PlanReport} {history history' : String → List CallRecord} {name : String}

/-- Two visits of the step end alike. -/
theorem status?_same (h : Concluded p last run report history)
    (h' : Concluded q last' run' report' history') (hagree : p.AgreeOn q name)
    (hown : ∀ status, run.BrokeOver name status → status.isDone = true)
    (hown' : ∀ status, run'.BrokeOver name status → status.isDone = true)
    (hn : name ∈ last.walk.dispatched) (hn' : name ∈ last'.walk.dispatched) :
    run.status? name = run'.status? name := by
  have hnode : name ∈ p.graph.dag.nodes := h.sound.walkDag ▸ h.sound.walk.dispatched_subset hn
  have hnode' : name ∈ q.graph.dag.nodes := h'.sound.walkDag ▸ h'.sound.walk.dispatched_subset hn'
  obtain ⟨first, hfirst⟩ := (h.graph.mem_nodes_iff name).1 hnode
  obtain ⟨second, hsecond⟩ := (h'.graph.mem_nodes_iff name).1 hnode'
  obtain ⟨hsecluded, haction, hmemo, hstatus⟩ := hagree name (.inl rfl) first second hfirst hsecond
  obtain ⟨_, status, hran, hrun, hdone⟩ := h.exists_ran hown hn hfirst
  obtain ⟨_, status', hran', hrun', hdone'⟩ := h'.exists_ran hown' hn' hsecond
  rw [haction, hmemo, hstatus] at hran'
  rw [hrun, hrun', hran.unique hsecluded hran' hdone hdone']

/-- Both runs visit the step, or none does, and where they do they leave it alike. -/
theorem visits_alike (h : Concluded p last run report history)
    (h' : Concluded q last' run' report' history') (hdag : q.graph.dag = p.graph.dag)
    (hagree : p.AgreeOn q name) (hundisturbed : run.Undisturbed p name)
    (hundisturbed' : run'.Undisturbed q name) :
    (name ∈ last.walk.dispatched ↔ name ∈ last'.walk.dispatched) ∧
      (name ∈ last.walk.dispatched → run.status? name = run'.status? name) := by
  revert hagree hundisturbed hundisturbed'
  refine h.graph.wellFormed.induction_path (P := fun name => p.AgreeOn q name →
    run.Undisturbed p name → run'.Undisturbed q name →
      (name ∈ last.walk.dispatched ↔ name ∈ last'.walk.dispatched) ∧
        (name ∈ last.walk.dispatched → run.status? name = run'.status? name))
    (fun name ih hagree hundisturbed hundisturbed' => ?_) name
  -- What the step depends on has been completed in both runs, or in none.
  have hcompleted : ∀ m, p.graph.dag.Path name m →
      (m ∈ last.walk.report.completed ↔ m ∈ last'.walk.report.completed) := fun m hm => by
    have hm' : q.graph.dag.Path name m := hdag ▸ hm
    obtain ⟨hvisited, hsame⟩ := ih m hm (hagree.of_path hm) (hundisturbed.of_path hm)
      (hundisturbed'.of_path hm')
    by_cases hd : m ∈ last.walk.dispatched
    · have hbelow := hundisturbed.below m hm
      have hbelow' := hundisturbed'.below m hm'
      obtain ⟨status, -, hrun, -, hok⟩ :=
        h.exists_status (fun status hbroke => (hbelow status hbroke).1) hd
      obtain ⟨status', -, hrun', -, hok'⟩ :=
        h'.exists_status (fun status hbroke => (hbelow' status hbroke).1) (hvisited.1 hd)
      rw [hok fun status hbroke => (hbelow status hbroke).2,
        hok' fun status hbroke => (hbelow' status hbroke).2]
      obtain rfl := Option.some.inj (hrun.symm.trans ((hsame hd).trans hrun'))
      exact Iff.rfl
    · exact iff_of_false (fun hm => hd (h.sound.walk.ended_dispatched m (.inl hm)))
        fun hm => hd (hvisited.2 (h'.sound.walk.ended_dispatched m (.inl hm)))
  have hdispatched : name ∈ last.walk.dispatched ↔ name ∈ last'.walk.dispatched := by
    by_cases hn : name ∈ p.graph.dag.nodes
    · rw [h.finished.mem_dispatched_iff h.sound h.done hn,
        h'.finished.mem_dispatched_iff h'.sound h'.done (hdag ▸ hn), hdag]
      exact forall₂_congr hcompleted
    · exact iff_of_false (fun hd => hn (h.sound.walkDag ▸ h.sound.walk.dispatched_subset hd))
        fun hd => hn (hdag ▸ h'.sound.walkDag ▸ h'.sound.walk.dispatched_subset hd)
  exact ⟨hdispatched, fun hd => h.status?_same h' hagree hundisturbed.own hundisturbed'.own hd
    (hdispatched.1 hd)⟩

/-- The step ends alike in both runs, visited or not. -/
theorem ends_alike (h : Concluded p last run report history)
    (h' : Concluded q last' run' report' history') (hdag : q.graph.dag = p.graph.dag)
    (hagree : p.AgreeOn q name) (hundisturbed : run.Undisturbed p name)
    (hundisturbed' : run'.Undisturbed q name) : run.status? name = run'.status? name := by
  obtain ⟨hvisited, hsame⟩ := h.visits_alike h' hdag hagree hundisturbed hundisturbed'
  by_cases hn : name ∈ p.graph.dag.nodes
  · by_cases hd : name ∈ last.walk.dispatched
    · exact hsame hd
    · rw [h.finished.status?_of_not_dispatched h.sound h.done h.uncancelled hn hd,
        h'.finished.status?_of_not_dispatched h'.sound h'.done h'.uncancelled (hdag ▸ hn)
          fun hd' => hd (hvisited.2 hd')]
  · rw [h.finished.status?_of_not_mem h.sound hn,
      h'.finished.status?_of_not_mem h'.sound (hdag ▸ hn)]

end Run.Concluded

/-- Two plans of one graph agree on a step and all that it depends on, the actions of which are
secluded, and their sinks never break down. In two runs that end with a report and that nobody
called off, the step ends with the same status. So it is whatever the other steps do, whatever the
providers, and whatever the schedules. -/
theorem Plan.status_isolated {p q : Plan μ} (hp : p.graph.Built) (hq : q.graph.Built)
    (hdag : q.graph.dag = p.graph.dag) (quiet : ∀ journal, p.sink.breaksAt journal = false)
    (quiet' : ∀ journal, q.sink.breaksAt journal = false) {name : String}
    (agree : p.AgreeOn q name) {provider : Provider σ} {walker : Walker} {world : σ}
    {run : Run μ σ} {report : PlanReport} (ended : p.Ends provider walker world run report)
    (uncancelled : run.cancelled = false) {provider' : Provider τ} {walker' : Walker} {world' : τ}
    {run' : Run μ τ} {report' : PlanReport}
    (ended' : q.Ends provider' walker' world' run' report')
    (uncancelled' : run'.cancelled = false) : run.status? name = run'.status? name := by
  obtain ⟨last, exchanges, history, h⟩ := ended.exists_concluded hp.sound uncancelled
  obtain ⟨last', exchanges', history', h'⟩ := ended'.exists_concluded hq.sound uncancelled'
  have hundisturbed := ended.undisturbed hp.sound quiet name
  have hundisturbed' := ended'.undisturbed hq.sound quiet' name
  exact h.ends_alike h' hdag agree ⟨hundisturbed.own, hundisturbed.below⟩
    ⟨hundisturbed'.own, hundisturbed'.below⟩

/-! ### A step aside -/

/-- A step whose calls, counted from zero, end as they are told. -/
def Step.told (name : String) (requires : List String) (ends : Nat → Status) : Step Nat where
  name := name
  shortName := name
  requires := requires
  action := ⟨fun calls _ => .done (calls + 1, .settled (ends calls))⟩
  memo := 0

/-- What comes of the calls of a step that is complete at once. -/
def atOnce (_ : Nat) : Status := .complete none

/-- What comes of the calls of a step that submits something first. -/
def inTime : Nat → Status
  | 0 => .submitted none
  | _ => .complete none

/-- Three steps. The last one requires the one between, which submits something first. The first one
has nothing to do with them. -/
def Step.trio (aside : Nat → Status) : List (Step Nat) :=
  [.told "aside" [] aside, .told "base" [] inTime, .told "top" ["base"] atOnce]

/-- The graph of the three steps. -/
def StepGraph.trio (aside : Nat → Status) : StepGraph Nat where
  steps := .ofList [("aside", .told "aside" [] aside), ("base", .told "base" [] inTime),
    ("top", .told "top" ["base"] atOnce)]
  dag := ⟨[("aside", []), ("base", []), ("top", ["base"])]⟩

/-- The plan of the three steps. -/
def Plan.trio (aside : Nat → Status) (poll : PollPolicy) : Plan Nat where
  id := "run"
  description := ""
  graph := .trio aside
  poll := poll

/-- A policy by which nobody waits. -/
def PollPolicy.eager (multiplier : Float) : PollPolicy := ⟨0, 0, multiplier, false⟩

namespace StepGraph

variable {aside : Nat → Status} {name : String} {step : Step Nat}

theorem ofSteps_trio (aside : Nat → Status) : ofSteps (Step.trio aside) = .ok (trio aside) := by
  cbv

theorem mem_trio_of_get? (h : (trio aside).get? name = some step) :
    (name, step) ∈ [("aside", Step.told "aside" [] aside), ("base", .told "base" [] inTime),
      ("top", .told "top" ["base"] atOnce)] :=
  (Table.get?_ofList_eq_some_iff (by simp)).1 h

/-- Only the last step depends on another one. -/
theorem path_trio {n m : String} (h : (trio aside).dag.Path n m) : n = "top" ∧ m = "base" := by
  have hedge : ∀ {n m : String}, (trio aside).dag.Edge n m → n = "top" ∧ m = "base" := by
    intro n m h
    simp only [Dag.Edge, Dag.dependencies, trio, List.lookup] at h
    split at h
    · cases h
    · split at h
      · cases h
      · split at h
        · next htop => exact ⟨eq_of_beq htop, List.mem_singleton.1 h⟩
        · cases h
  induction h with
  | edge first => exact hedge first
  | cons first rest ih => exact absurd ((hedge first).2.symm.trans ih.1) (by decide)

end StepGraph

/-- Whatever comes of the first step, two such plans agree on the last one. -/
theorem Plan.agreeOn_trio {aside aside' : Nat → Status} {poll poll' : PollPolicy} :
    (trio aside poll).AgreeOn (trio aside' poll') "top" := by
  intro n hn first second hfirst hsecond
  have hn : n ≠ "aside" := by
    rintro rfl
    rcases hn with hn | hn
    · exact absurd hn (by decide)
    · exact absurd (StepGraph.path_trio hn).2 (by decide)
  have hfirst := StepGraph.mem_trio_of_get? hfirst
  have hsecond := StepGraph.mem_trio_of_get? hsecond
  simp only [List.mem_cons, Prod.mk.injEq, hn, false_and, false_or, List.not_mem_nil,
    or_false] at hfirst hsecond
  rcases hfirst with ⟨rfl, rfl⟩ | ⟨rfl, rfl⟩
  · obtain ⟨-, rfl⟩ := hsecond.resolve_right (by simp)
    exact ⟨fun _ _ => .done _, rfl, rfl, rfl⟩
  · obtain ⟨-, rfl⟩ := hsecond.resolve_left (by simp)
    exact ⟨fun _ _ => .done _, rfl, rfl, rfl⟩

/-- The run is over, it closes with a report, and nobody has called it off. Then the step has the
status. -/
def Run.closesWith (last : Run μ σ) (name : String) (status : Status) : Bool :=
  (last.isOver && last.workers.isEmpty) &&
    match last.finish with
    | (run, some _) => !run.cancelled && run.status? name == some status
    | (_, none) => false

namespace Plan

/-- The workers of some steps one after the other, each with the turns that it takes. -/
def oneByOne (turns : List (String × Nat)) : List Move :=
  turns.flatMap fun (name, count) => List.replicate count (.work name) ++ [.settle name]

theorem exists_ends_of_plays {p : Plan μ} {provider : Provider σ} {walker : Walker} {world : σ}
    {moves : List Move} {name : String} {status : Status}
    (h : (p.playsAtOnce provider walker world moves).any (·.closesWith name status) = true) :
    ∃ run report, p.Ends provider walker world run report ∧ run.cancelled = false ∧
      run.status? name = some status := by
  obtain ⟨last, hlast, h⟩ := (Option.any_eq_true _ _).1 h
  rw [Run.closesWith, Bool.and_eq_true] at h
  obtain ⟨hdone, h⟩ := h
  rw [playsAtOnce_eq] at hlast
  split at h
  · next run report hfinish =>
    rw [Bool.and_eq_true, Bool.not_eq_true', beq_iff_eq] at h
    exact ⟨run, report, ⟨last, reaches_of_plays hlast, Bool.and_eq_true_iff.1 hdone, hfinish⟩, h⟩
  · cases h

/-- The first step fails, one after the other. -/
theorem plays_failed (multiplier : Float) :
    ((trio (fun _ => .failed none) (.eager multiplier)).playsAtOnce .idle .sequential ()
      (oneByOne [("aside", 5), ("base", 9), ("top", 5)])).any
      (·.closesWith "top" (.complete none)) = true := by
  cbv

/-- The first step submits something and is the last one to be complete. -/
theorem plays_inTime (multiplier : Float) :
    ((trio inTime (.eager multiplier)).playsAtOnce .idle .unbounded ()
      (oneByOne [("base", 9), ("top", 5), ("aside", 9)])).any
      (·.closesWith "top" (.complete none)) = true := by
  cbv

/-- Whether a step aside fails, or is slow and goes well: the last step ends alike. -/
theorem status_isolated_trio :
    ∃ (run run' : Run Nat Unit) (report report' : PlanReport),
      (trio (fun _ => .failed none) (.eager 1)).Ends .idle .sequential () run report ∧
      (trio inTime (.eager 1)).Ends .idle .unbounded () run' report' ∧
      run.status? "top" = some (.complete none) ∧ run'.status? "top" = some (.complete none) := by
  obtain ⟨run, report, hends, hcancelled, hstatus⟩ := exists_ends_of_plays (plays_failed 1)
  obtain ⟨run', report', hends', hcancelled', -⟩ := exists_ends_of_plays (plays_inTime 1)
  have hbuilt : ∀ aside, (trio aside (.eager 1)).graph.Built := fun aside =>
    .ofSteps (StepGraph.ofSteps_trio aside)
  have hsame := status_isolated (p := trio (fun _ => .failed none) (.eager 1))
    (q := trio inTime (.eager 1)) (hbuilt _) (hbuilt _) rfl (fun _ => rfl) (fun _ => rfl)
    agreeOn_trio hends hcancelled hends' hcancelled'
  exact ⟨run, run', report, report', hends, hends', hstatus, hsame ▸ hstatus⟩

end Plan

end Rollout

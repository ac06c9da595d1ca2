import Mathlib.Data.List.Chain
import Rollout.Proofs.Plan.FinalStatus
import Rollout.Proofs.Plan.Quiet
import Rollout.Proofs.Plan.Report
import Rollout.Proofs.Plan.Telling

/-!
# The journal replays to the report

Whoever reads the journal of a run knows all that its report says. The journal tells the start of
the plan, then the changes of its steps, then its end with the outcome, and numbers them. For each
step it has the statuses from the first to the last, none twice in a row and none after the step was
done.

* `Status.Precedes`: one status can come right before another one in a journal.
* `Run.Replays`: the invariant, and `Run.Replays.telling`: telling a change keeps it.
* `Journal.Replays` and `Plan.events_replay`: what the journal of a run with a report tells.
-/

namespace Rollout

variable {μ σ : Type}

/-! ## Journals -/

namespace Journal

variable {j : Journal} {moment : Timestamp} {event : Event}

theorem envelopes_record : (j.record moment event).envelopes =
    j.envelopes ++ [j.envelope moment event] :=
  List.reverse_cons

/-- The envelopes bear the version, the run, and their own place in it. -/
def Stamped (j : Journal) : Prop :=
  ∀ i e, j.envelopes[i]? = some e →
    e.version = version ∧ e.runId = j.runId ∧ e.sequence = UInt64.ofNat i

theorem Stamped.record (h : j.Stamped) : (j.record moment event).Stamped := by
  intro i e he
  rw [envelopes_record] at he
  by_cases hi : i < j.envelopes.length
  · rw [List.getElem?_append_left hi] at he
    exact h i e he
  · rw [List.getElem?_append_right (by omega), List.getElem?_singleton] at he
    split at he
    · obtain rfl := Option.some.inj he
      have hsize : i = j.size := by
        rw [envelopes, List.length_reverse] at *
        unfold size
        omega
      exact ⟨rfl, rfl, by rw [hsize]; rfl⟩
    · cases he

end Journal

namespace Envelope

variable {envelopes : List Envelope} {e : Envelope} {name : String} {status : Status}
  {moment : Timestamp}

theorem statusesOf_append (name : String) (envelopes later : List Envelope) :
    statusesOf name (envelopes ++ later) = statusesOf name envelopes ++ statusesOf name later :=
  List.filterMap_append

theorem checkpoint_append_singleton (envelopes : List Envelope) (e : Envelope) :
    checkpoint (envelopes ++ [e]) = addTo (checkpoint envelopes) e := by
  rw [checkpoint, List.foldl_append]
  rfl

/-- One more change of a step. -/
theorem statusesOf_changed (he : e.event = .stepChanged name status moment) (m : String) :
    statusesOf m (envelopes ++ [e]) =
      if m = name then statusesOf m envelopes ++ [status] else statusesOf m envelopes := by
  rw [statusesOf_append]
  by_cases hm : m = name
  · subst hm
    simp [statusesOf, he, Event.statusOf?]
  · simp [statusesOf, he, Event.statusOf?, hm, Ne.symm hm]

theorem checkpoint_changed (he : e.event = .stepChanged name status moment) (m : String) :
    (checkpoint (envelopes ++ [e])).get? m =
      if m = name then some ⟨name, status, moment⟩ else (checkpoint envelopes).get? m := by
  rw [checkpoint_append_singleton, addTo, he, Table.get?_insert]

end Envelope

/-! ## The invariant -/

/-- A status that is not done, and another one. -/
def Status.Precedes (status next : Status) : Prop := status ≠ next ∧ status.isDone = false

/-- The statuses of a step that was pending at first, the last of which it still has. -/
structure Status.History (told : List Status) (status : Status) : Prop where
  chain : (.pending :: told).IsChain Precedes
  last : (.pending :: told).getLast? = some status

theorem Status.History.snoc {told : List Status} {status next : Status}
    (h : History told status) (hnext : status.Precedes next) : History (told ++ [next]) next where
  chain := by
    rw [← List.cons_append, List.isChain_append]
    refine ⟨h.chain, .singleton _, fun x hx y hy => ?_⟩
    rw [h.last] at hx
    obtain rfl := Option.some.inj hx
    obtain rfl := Option.some.inj hy
    exact hnext
  last := by rw [← List.cons_append, List.getLast?_append]; rfl

namespace Run

/-- The journal tells that the plan started and which steps changed, and all that is shown of the
steps can be read off it. -/
structure Replays (p : Plan μ) (r : Run μ σ) : Prop where
  runId : r.journal.runId = p.id
  stamped : r.journal.Stamped
  events : ∃ changes, r.journal.envelopes.map (·.event) =
      .planStarted p.description p.keys :: changes ∧
    ∀ e ∈ changes, ∃ name ∈ p.keys, ∃ status moment, e = .stepChanged name status moment
  planned : ∀ name line, r.view name = some line → name ∈ p.keys ∧ line.name = name
  history : ∀ name line, r.view name = some line →
    Status.History (Envelope.statusesOf name r.journal.envelopes) line.status
  latest : ∀ name, (Envelope.checkpoint r.journal.envelopes).get? name =
    if Envelope.statusesOf name r.journal.envelopes = [] then none else r.view name

namespace Replays

variable {p : Plan μ} {r s : Run μ σ}

/-- The change of a step is told. -/
theorem change (h : r.Replays p) {name : String} {old : Snapshot} {status : Status}
    {moment : Timestamp} (found : r.view name = some old) (opened : old.status.isDone = false)
    (other : old.status ≠ status)
    (journal : s.journal = r.journal.record moment (.stepChanged name status moment))
    (view : s.view = Function.update r.view name (some ⟨name, status, moment⟩)) :
    s.Replays p := by
  have henvelopes : s.journal.envelopes = _ := journal ▸ Journal.envelopes_record
  have hevent : (r.journal.envelope moment (.stepChanged name status moment)).event =
      .stepChanged name status moment := rfl
  obtain ⟨hkey, -⟩ := h.planned name old found
  -- Only the step that changed has another view, and only it has one more status.
  have hviews : ∀ m line, s.view m = some line →
      m = name ∧ line = ⟨name, status, moment⟩ ∨ m ≠ name ∧ r.view m = some line := by
    intro m line hm
    rw [view] at hm
    by_cases hmn : m = name
    · subst hmn
      rw [Function.update_self] at hm
      exact .inl ⟨rfl, (Option.some.inj hm).symm⟩
    · rw [Function.update_of_ne hmn] at hm
      exact .inr ⟨hmn, hm⟩
  exact
    { runId := by
        rw [journal]
        exact h.runId
      stamped := by
        rw [journal]
        exact h.stamped.record
      events := by
        obtain ⟨changes, hchanges, hall⟩ := h.events
        refine ⟨changes ++ [.stepChanged name status moment], ?_, fun e he => ?_⟩
        · rw [henvelopes, List.map_append, hchanges]
          rfl
        · rcases List.mem_append.1 he with he | he
          · exact hall e he
          · exact ⟨name, hkey, status, moment, List.mem_singleton.1 he⟩
      planned := by
        intro m line hm
        rcases hviews m line hm with ⟨rfl, rfl⟩ | ⟨-, hm⟩
        · exact ⟨hkey, rfl⟩
        · exact h.planned m line hm
      history := by
        intro m line hm
        rw [henvelopes, Envelope.statusesOf_changed hevent]
        rcases hviews m line hm with ⟨rfl, rfl⟩ | ⟨hmn, hm⟩
        · rw [if_pos rfl]
          exact (h.history m old found).snoc ⟨other, opened⟩
        · rw [if_neg hmn]
          exact h.history m line hm
      latest := by
        intro m
        rw [henvelopes, Envelope.statusesOf_changed hevent, Envelope.checkpoint_changed hevent,
          view]
        by_cases hmn : m = name
        · subst hmn
          simp
        · rw [if_neg hmn, if_neg hmn, Function.update_of_ne hmn]
          exact h.latest m }

/-- The invariant is about the journal and the views only. -/
theorem congr (h : r.Replays p) (journal : s.journal = r.journal) (view : s.view = r.view) :
    s.Replays p where
  runId := journal ▸ h.runId
  stamped := journal ▸ h.stamped
  events := journal ▸ h.events
  planned := view ▸ h.planned
  history := journal ▸ view ▸ h.history
  latest := journal ▸ view ▸ h.latest

/-- Telling at most one change keeps the invariant. -/
theorem telling (h : r.Replays p) (hs : Telling r s) : s.Replays p := by
  cases hs with
  | nothing journal view => exact h.congr journal view
  | change found opened other journal view => exact h.change found opened other journal view

/-- So does telling some changes one after the other. -/
theorem tellings (h : r.Replays p) (hs : Relation.ReflTransGen Telling r s) : s.Replays p := by
  induction hs with
  | refl => exact h
  | tail _ last ih => exact ih.telling last

end Replays

end Run

/-- When a run of pending steps begins, the journal tells that, and that is all. -/
theorem Plan.replays_begin {p : Plan μ} (hp : p.graph.Sound)
    (pending : ∀ name step, p.graph.get? name = some step → step.status = .pending)
    {walker : Walker} {world : σ} {cancelled : Bool} {start : Run μ σ}
    (h : p.begin walker world cancelled = .ok start) : start.Replays p := by
  obtain ⟨r, hplan, -, -, -, -, ⟨moment, hjournal⟩, hstart⟩ := Plan.begin_eq_ok h
  have hview : ∀ name, start.view name = (p.graph.get? name).map (·.snapshot) := by
    intro name
    have hgraph : start.plan.graph = p.graph := (Plan.sound_begin hp h).2.1
    rw [Run.view, Run.step?, hgraph]
  have hjournal : start.journal =
      Journal.record { runId := p.id } moment (.planStarted p.description p.keys) := by
    rw [hstart, ← hjournal]
    split <;> rfl
  exact
    { runId := by
        rw [hjournal]
        rfl
      stamped := by
        rw [hjournal]
        exact Journal.Stamped.record fun i e he => by simp [Journal.envelopes] at he
      events := by
        rw [hjournal]
        exact ⟨[], rfl, fun _ he => absurd he List.not_mem_nil⟩
      planned := by
        intro name line hline
        rw [hview] at hline
        obtain ⟨step, hs, rfl⟩ := Option.map_eq_some_iff.1 hline
        exact ⟨(hp.mem_nodes_iff name).2 ⟨step, hs⟩, hp.named name step hs⟩
      history := by
        intro name line hline
        rw [hview] at hline
        obtain ⟨step, hs, rfl⟩ := Option.map_eq_some_iff.1 hline
        rw [hjournal]
        exact ⟨.singleton _, congrArg some (pending name step hs).symm⟩
      latest := by
        intro name
        rw [hjournal]
        rfl }

theorem Plan.Reaches.replays {p : Plan μ} (hp : p.graph.Sound)
    (pending : ∀ name step, p.graph.get? name = some step → step.status = .pending)
    {provider : Provider σ} {walker : Walker} {world : σ} {run : Run μ σ}
    (h : p.Reaches provider walker world run) : run.Replays p := by
  obtain ⟨cancelled, start, hbegin, hsteps⟩ := h
  induction hsteps with
  | refl => exact Plan.replays_begin hp pending hbegin
  | tail move before next ih =>
    have hreached : p.Reaches provider walker world _ := ⟨cancelled, start, hbegin, before⟩
    exact ih.telling (Run.telling_of_move? (hreached.sound hp) (hreached.undone hp) next)

/-! ## The end -/

/-- A blocked step was never visited, so it is still pending when the walk is over. -/
theorem Plan.Reaches.opened_of_blocked {p : Plan μ} (hp : p.graph.Sound)
    (pending : ∀ name step, p.graph.get? name = some step → step.status = .pending)
    {provider : Provider σ} {walker : Walker} {world : σ} {run : Run μ σ}
    (h : p.Reaches provider walker world run) {name : String}
    (hn : name ∈ run.walk.report.blocked) :
    ∃ status, run.status? name = some status ∧ status.isDone = false := by
  have hr := h.sound hp
  have hnode : name ∈ p.graph.dag.nodes :=
    hr.walkDag ▸ hr.walk.settled_subset (Walk.mem_settled_iff.2 (.inr (.inr hn)))
  obtain ⟨step, hs⟩ := (hp.mem_nodes_iff name).1 hnode
  have hsame := (h.undone hp).untouched name (hr.walk.not_mem_dispatched_of_blocked hn)
  refine ⟨step.status, Run.status?_eq_some (hsame.trans hs), ?_⟩
  rw [pending name step hs]
  rfl

/-- The last statuses of a run are told one by one, too. -/
theorem Plan.Reaches.replays_close {p : Plan μ} (hp : p.graph.Sound)
    (pending : ∀ name step, p.graph.get? name = some step → step.status = .pending)
    {provider : Provider σ} {walker : Walker} {world : σ} {run : Run μ σ}
    (h : p.Reaches provider walker world run) : run.close.Replays p :=
  (h.replays hp pending).tellings
    (Run.tellings_close (h.sound hp) fun _ hn => h.opened_of_blocked hp pending hn)

/-- What the journal of a run with a report tells. -/
structure Journal.Replays (j : Journal) (p : Plan μ) (report : PlanReport) : Prop where
  /-- Its envelopes are those of one run, in order. -/
  runId : j.runId = p.id
  stamped : j.Stamped
  /-- The plan starts, its steps change, and it comes to its end with the outcome of the report. -/
  events : ∃ changes durationMs, j.envelopes.map (·.event) =
      .planStarted p.description p.keys :: changes ++
        [.planFinished report.outcome.name durationMs] ∧
    ∀ e ∈ changes, ∃ name ∈ p.keys, ∃ status moment, e = .stepChanged name status moment
  /-- No status of a step is told twice in a row or after one that is done, and the last one is that
  of the report. -/
  history : ∀ line ∈ report.steps,
    (.pending :: Envelope.statusesOf line.name j.envelopes).IsChain Status.Precedes ∧
      (Envelope.statusesOf line.name j.envelopes).getLast? = some line.status
  /-- What was told last of each step is the report, by name. -/
  checkpoint : (Envelope.checkpoint j.envelopes).values.Perm report.steps
  ascending : (Envelope.checkpoint j.envelopes).values.Pairwise (·.name < ·.name)

/-- A status that is done has been told. -/
theorem Status.History.getLast?_of_isDone {told : List Status} {status : Status}
    (h : History told status) (hdone : status.isDone = true) : told.getLast? = some status := by
  have hlast := h.last
  cases told with
  | nil =>
    obtain rfl := Option.some.inj hlast
    cases hdone
  | cons first rest => exact (List.getLast?_cons_cons ▸ hlast :)

namespace Run

variable {p : Plan μ} {r s : Run μ σ} {report : PlanReport}

/-- The lines of a report are what is shown of the steps. -/
theorem mem_report_iff (hg : r.plan.graph.Sound) {line : Snapshot} :
    line ∈ r.report.steps ↔ r.view line.name = some line := by
  constructor
  · intro hline
    obtain ⟨-, step, hs, hsnapshot⟩ := Plan.get?_of_mem_snapshot hg hline
    rw [← hsnapshot]
    exact view_eq_some (hsnapshot ▸ hs)
  · intro hview
    obtain ⟨step, hs, hsnapshot⟩ := Option.map_eq_some_iff.1 hview
    have hkey : line.name ∈ r.plan.keys := (hg.mem_nodes_iff line.name).2 ⟨step, hs⟩
    obtain ⟨other, hother, hname⟩ :=
      List.mem_map.1 ((Plan.names_snapshot_perm hg).mem_iff.2 hkey)
    obtain ⟨-, step', hs', hsnapshot'⟩ := Plan.get?_of_mem_snapshot hg hother
    rw [hname] at hs'
    obtain rfl := Option.some.inj (hs.symm.trans hs')
    exact hsnapshot.symm.trans hsnapshot' ▸ hother

/-- The last event tells the outcome of the report. -/
theorem journal_finish (h : r.finish = (s, some report)) :
    ∃ moment ms, s.journal =
      r.close.journal.record moment (.planFinished report.outcome.name ms) := by
  obtain ⟨hbroken, hreport, -⟩ := finish_eq_some h
  have hs : s = r.finish.1 := by rw [h]
  rw [hs, hreport, finish, announce, hbroken, if_neg Bool.false_ne_true]
  exact ⟨_, _, rfl⟩

namespace Replays

/-- The table of what was told last has exactly the lines of the report, in ascending order, once
every step is done. -/
theorem checkpoint_perm (h : r.Replays p) (hg : r.plan.graph.Sound)
    (hdone : ∀ line ∈ r.report.steps, line.status.isDone = true) :
    (Envelope.checkpoint r.journal.envelopes).values.Perm r.report.steps ∧
      (Envelope.checkpoint r.journal.envelopes).values.Pairwise (·.name < ·.name) := by
  have hget : ∀ name line, (Envelope.checkpoint r.journal.envelopes).get? name = some line ↔
      name = line.name ∧ line ∈ r.report.steps := by
    intro name line
    rw [h.latest, mem_report_iff hg]
    constructor
    · intro hline
      rw [Option.ite_none_left_eq_some] at hline
      obtain ⟨-, hname⟩ := h.planned name line hline.2
      exact ⟨hname.symm, hname ▸ hline.2⟩
    · rintro ⟨rfl, hview⟩
      rw [if_neg fun hnil => ?_]
      · exact hview
      · have hlast := (h.history _ _ hview).getLast?_of_isDone
          (hdone line ((mem_report_iff hg).2 hview))
        rw [hnil] at hlast
        cases hlast
  have hascending : (Envelope.checkpoint r.journal.envelopes).values.Pairwise
      (·.name < ·.name) := by
    refine List.pairwise_map.2 ((Table.sorted _).imp_of_mem fun {a b} ha hb hlt => ?_)
    rw [((hget a.1 a.2).1 (Table.get?_eq_some_iff.2 ha)).1,
      ((hget b.1 b.2).1 (Table.get?_eq_some_iff.2 hb)).1] at hlt
    exact hlt
  refine ⟨(List.perm_ext_iff_of_nodup ?_ ?_).2 fun line => ?_, hascending⟩
  · refine hascending.imp fun {a b} hlt heq => ?_
    rw [heq] at hlt
    exact String.lt_irrefl _ hlt
  · have hnames := (Plan.names_snapshot_perm hg).nodup_iff.2 hg.wellFormed.nodup_nodes
    exact hnames.of_map _
  · constructor
    · intro hline
      obtain ⟨⟨name, line⟩, hentry, rfl⟩ := List.mem_map.1 hline
      exact ((hget name line).1 (Table.get?_eq_some_iff.2 hentry)).2
    · intro hline
      exact List.mem_map.2 ⟨(line.name, line),
        Table.get?_eq_some_iff.1 ((hget line.name line).2 ⟨rfl, hline⟩), rfl⟩

/-- The last event is about no step. -/
theorem finish (h : r.Replays p) (hg : r.plan.graph.Sound)
    (hdone : ∀ line ∈ r.report.steps, line.status.isDone = true) {moment : Timestamp}
    {ms : UInt64} {j : Journal}
    (hj : j = r.journal.record moment (.planFinished r.report.outcome.name ms)) :
    j.Replays p r.report := by
  have henvelopes : j.envelopes = _ := hj ▸ Journal.envelopes_record
  have hstatuses : ∀ name, Envelope.statusesOf name j.envelopes =
      Envelope.statusesOf name r.journal.envelopes := by
    intro name
    rw [henvelopes, Envelope.statusesOf_append]
    exact List.append_nil _
  have hcheckpoint : Envelope.checkpoint j.envelopes =
      Envelope.checkpoint r.journal.envelopes := by
    rw [henvelopes, Envelope.checkpoint_append_singleton]
    rfl
  obtain ⟨hperm, hascending⟩ := h.checkpoint_perm hg hdone
  exact
    { runId := by
        rw [hj]
        exact h.runId
      stamped := by
        rw [hj]
        exact h.stamped.record
      events := by
        obtain ⟨changes, hchanges, hall⟩ := h.events
        refine ⟨changes, ms, ?_, hall⟩
        rw [henvelopes, List.map_append, hchanges]
        rfl
      history := by
        intro line hline
        have hhistory := h.history _ _ ((mem_report_iff hg).1 hline)
        rw [hstatuses]
        exact ⟨hhistory.chain, hhistory.getLast?_of_isDone (hdone line hline)⟩
      checkpoint := hcheckpoint ▸ hperm
      ascending := hcheckpoint ▸ hascending }

end Replays

end Run

/-- Whoever heard all of a run with a report knows the report. -/
theorem Plan.Ends.replays {p : Plan μ} (hp : p.graph.Sound)
    (pending : ∀ name step, p.graph.get? name = some step → step.status = .pending)
    {provider : Provider σ} {walker : Walker} {world : σ} {run : Run μ σ} {report : PlanReport}
    (h : p.Ends provider walker world run report) : run.journal.Replays p report := by
  have hfinal := h.final hp
  obtain ⟨last, reached, -, hfinish⟩ := h
  obtain ⟨-, rfl, hplan, -⟩ := Run.finish_eq_some hfinish
  obtain ⟨moment, ms, hjournal⟩ := Run.journal_finish hfinish
  refine (reached.replays_close hp pending).finish (hplan ▸ hfinal.graph) (fun line hline => ?_)
    hjournal
  obtain ⟨hkey, step, hs, rfl⟩ := Plan.get?_of_mem_snapshot (hplan ▸ hfinal.graph) hline
  obtain ⟨status, hstatus, hdone⟩ := hfinal.exists_status (hplan ▸ hkey)
  rw [Run.status?, Run.step?, hplan, hs] at hstatus
  obtain rfl := Option.some.inj hstatus
  exact hdone

/-! ## The journal -/

/-- Whenever and however a run of pending steps comes to its end, if its sink is quiet, it has a
report, and its journal replays to that. -/
theorem Plan.events_replay {p : Plan μ} (hp : p.graph.Sound)
    (pending : ∀ name step, p.graph.get? name = some step → step.status = .pending)
    (quiet : ∀ journal, p.sink.breaksAt journal = false) {provider : Provider σ} {walker : Walker}
    {world : σ} {last : Run μ σ} (reached : p.Reaches provider walker world last)
    (done : last.IsDone) :
    ∃ run report, last.finish = (run, some report) ∧ run.journal.Replays p report := by
  obtain ⟨run, report, hfinish⟩ := (reached.quiet hp quiet).exists_report
  exact ⟨run, report, hfinish, Plan.Ends.replays hp pending ⟨last, reached, done, hfinish⟩⟩

/-- The first of two steps fails, and the second one, which requires it, is never visited. The
journal replays to what is reported of them. -/
theorem Plan.events_replay_pair_failed :
    ∃ (last run : Run Unit Unit) (report : PlanReport), last.finish = (run, some report) ∧
      report.walk = { failed := ["first"], blocked := ["second"] } ∧
      run.journal.Replays (Plan.pair (.failed none) .standard) report := by
  obtain ⟨last, hlast, h⟩ := (Option.any_eq_true _ _).1 (Plan.plays_pair_failed .standard)
  rw [Bool.and_eq_true, Bool.and_eq_true, Option.any_eq_true] at h
  obtain ⟨⟨hover, hworkers⟩, report', hreport', hwalk⟩ := h
  rw [Bool.and_eq_true, decide_eq_true_eq] at hwalk
  have hplain : (Plan.pair (.failed none) .standard).Plain := Plan.plain_pair rfl .standard
  obtain ⟨run, report, hfinish, hreplays⟩ := Plan.events_replay hplain.built.sound hplain.pending
    hplain.sound (Plan.reaches_of_plays hlast) ⟨hover, hworkers⟩
  have hsame : report = report' := by
    rw [hfinish] at hreport'
    exact Option.some.inj hreport'
  exact ⟨last, run, report, hfinish, hsame ▸ hwalk.1, hreplays⟩

end Rollout

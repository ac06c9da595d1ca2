import Rollout.Proofs.Plan.Recording
import Rollout.Proofs.Plan.Report
import Rollout.Proofs.Workspace.BuildStages
import Rollout.Proofs.Workspace.Requirements
import Rollout.Proofs.Workspace.Schedule

/-!
# Building twice

After a successful build there is nothing left to build: every stack is up to date with the template
that would be rendered for it again, since what it reads has not changed after it was rendered.

* `Build.UpToDate` and `Build.Stage.upToDate`: stacks that a build has nothing to do with any more.
* `Build.ensures_again` and `Build.contractAgain`: a step finds its stack up to date and is skipped.
* `Workspace.build_twice`: the second of two builds is a success that leaves everything as it was.
-/

namespace Rollout

open Job

namespace Build

variable {p : Plan (Option Change)} {w : Workspace} {origin : Simulator} {s : Stack}
  {world later : Recorded Simulator} {change : Option Change} {status : Status}

/-! ## Stacks that are up to date -/

/-- The stack is there, nothing is left to be reported of it, and it is to be left alone or has the
hash of its template. -/
structure UpToDate (w : Workspace) (s : Stack) (record : Simulator.Record) (world : Simulator) :
    Prop where
  there : world.records.get? s.fqn = some record
  rests : record.transitions = []
  present : record.stack.state.isDeleted = false
  settled : s.isUpdateBlocked = false →
    record.stack.state.isInProgress = false ∧ record.stack.state ≠ .rollbackComplete ∧
      ∃ template, w.Renders s world template ∧ record.stack.templateHash = some template.hash

/-- A stack is up to date when its step has ended well, unless it is to be left alone and was in
progress from the first. -/
theorem Stage.upToDate (h : Stage p w origin s world change status) (hok : status.isOk = true)
    (horderly : world.inner.Throughout Simulator.Orderly)
    (hreads : ∀ fqn, w.Reads s fqn → p.graph.dag.Path s.fqn fqn)
    (hidle : s.isUpdateBlocked = true → ∀ record, origin.records.get? s.fqn = some record →
      record.stack.state.isInProgress = false) :
    ∃ record, UpToDate w s record world.inner := by
  cases h with
  | waits opened =>
    rw [Status.not_isOk_of_not_isDone opened] at hok
    cases hok
  | underWay opened =>
    rw [Status.not_isOk_of_not_isDone opened] at hok
    cases hok
  | @leftAlone record blocked there present progress =>
    have hsettled : record.stack.state.isInProgress = false := by
      by_contra hprogress
      rw [Bool.not_eq_false] at hprogress
      obtain ⟨old, hold, hbusy⟩ := progress hprogress
      rw [hidle blocked old hold] at hbusy
      cases hbusy
    refine ⟨record, there, (horderly _ record there).transitions_eq_nil hsettled, present,
      fun h => ?_⟩
    rw [blocked] at h
    cases h
  | @unchanged template record submitted there present settled sound =>
    exact ⟨record, there, (horderly _ record there).transitions_eq_nil settled, present, fun _ =>
      ⟨settled, sound, template, submitted.rendered hreads, submitted.hash record there⟩⟩
  | @complete _ template record _ submitted there completed =>
    have hsettled := Simulator.not_isInProgress_of_isComplete completed
    refine ⟨record, there, (horderly _ record there).transitions_eq_nil hsettled, ?_, fun _ =>
      ⟨hsettled, ?_, template, submitted.rendered hreads, submitted.hash record there⟩⟩
    · rcases (Simulator.isComplete_iff _).1 completed with h | h <;> rw [h] <;> rfl
    · rcases (Simulator.isComplete_iff _).1 completed with h | h <;> rw [h] <;> exact nofun
  | failed => cases hok

/-! ## The second time -/

/-- The records that the step of a name has to do with are as they were. -/
def AsBefore (p : Plan (Option Change)) (origin : Simulator) (name : String)
    (world : Recorded Simulator) : Prop :=
  world.inner.records.get? name = origin.records.get? name ∧
    ∀ m, p.graph.dag.Path name m → world.inner.records.get? m = origin.records.get? m

theorem AsBefore.rely {name : String} (h : AsBefore p origin name world)
    (hkept : Kept p name world later) : AsBefore p origin name later :=
  ⟨hkept.own.trans h.1, fun m hm => (hkept.needs m hm).trans (h.2 m hm)⟩

/-- A request about the stack of the step that leaves its record as it was. -/
theorem AsBefore.respond (h : AsBefore p origin s.fqn world) (hp : p.graph.Sound) {r : Request}
    (hr : r.fqn = s.fqn) {after : Simulator} {reply : Reply r.Answer}
    (hrespond : Provider.simulated.respond world.inner r = (after, reply))
    (hown : after.records.get? s.fqn = origin.records.get? s.fqn) (exchanges : List Exchange) :
    AsBefore p origin s.fqn ⟨after, exchanges⟩ :=
  ⟨hown, fun m hm => (needs_respond hp hm hr hrespond).trans (h.2 m hm)⟩

/-- The step was skipped, nothing was submitted, and the records are as they were. -/
def Skips (p : Plan (Option Change)) (origin : Simulator) (name : String) (change : Option Change)
    (status : Status) (world : Recorded Simulator) : Prop :=
  change = none ∧ status.isSkipped = true ∧ AsBefore p origin name world

/-- What an attempt ends with. Nothing can go wrong. -/
def SkipsAttempt (p : Plan (Option Change)) (origin : Simulator) (name : String) :
    Except (Option String) (Except Error (Option Change × Status)) → Recorded Simulator → Prop
  | .ok (.ok (change, status)), world => Skips p origin name change status world
  | _, _ => False

theorem ensures_skip (reason : String) (h : AsBefore p origin s.fqn world) :
    (pure (none, .skipped (some reason)) : ExceptT Error Job (Option Change × Status)).run.Ensures
      (terms p s.fqn) (SkipsAttempt p origin s.fqn) world :=
  fun _ hlater => ⟨rfl, rfl, h.rely hlater⟩

/-- An update finds that the template is the one that was submitted last. -/
theorem ensures_updateStack_again (hw : w.lookups = .standard) (hp : p.graph.Sound)
    (hreads : ∀ fqn, w.Reads s fqn → p.graph.dag.Path s.fqn fqn)
    (hbefore : AsBefore p origin s.fqn world) {record : Simulator.Record}
    (hthere : origin.records.get? s.fqn = some record)
    (hsettled : record.stack.state.isInProgress = false) {template : RenderedTemplate}
    (hrenders : w.Renders s origin template)
    (hhash : record.stack.templateHash = some template.hash) :
    (updateStack w s).run.Ensures (terms p s.fqn) (SkipsAttempt p origin s.fqn) world := by
  have hresolve := (Workspace.readsOnly_resolve hw s).ensures (t := terms p s.fqn)
    (fun name => .inr ⟨name, trivial, rfl⟩) (fun world name => kept_outputs s.fqn name world) world
  have hsame : ∀ result later, Kept p s.fqn world later →
      ((∀ before after, Kept p s.fqn before after → ∀ name, w.Reads s name →
        after.inner.records.get? name = before.inner.records.get? name) →
          result = ((w.resolve s).run.perform .simulated later.inner).2) →
      result = .ok (.ok template) := fun result later hkept hrendered => by
    rw [hrendered fun _ _ hrely name hname => hrely.needs name (hreads name hname)]
    exact hrenders.congr hw fun fqn hfqn => (hbefore.rely hkept).2 fqn (hreads fqn hfqn)
  refine ensures_bind_run hresolve (fun found mid hmid => ?_) (fun e mid hmid => ?_)
    fun message mid hmid => ?_
  · -- What the template is rendered from has not changed, so it is the one that was submitted.
    obtain ⟨hkept, -, hrendered⟩ := hmid
    cases hsame _ mid hkept hrendered
    refine ensures_request_bind (asks_own rfl) fun later hlater => ?_
    have hbefore := (hbefore.rely hkept).rely hlater
    obtain ⟨after, hcases⟩ := Simulator.respond_update (submission s template)
      (hbefore.1.trans hthere) hsettled
    have hhash : record.stack.templateHash = some (submission s template).template.hash := hhash
    rw [if_pos hhash] at hcases
    obtain ⟨hrespond, hafter⟩ := hcases
    exact ⟨_, .ok .noChange, Provider.respond_recorded hrespond, ensures_skip "nochange"
      (hbefore.respond hp rfl hrespond (hafter.trans hthere.symm) _)⟩
  · obtain ⟨hkept, -, hrendered⟩ := hmid
    cases hsame _ mid hkept hrendered
  · obtain ⟨-, ⟨_, hvalue⟩, -⟩ := hmid
    cases hvalue

/-- An attempt finds the stack up to date. -/
theorem ensures_attempt_again (hw : w.lookups = .standard) (hp : p.graph.Sound)
    (hreads : ∀ fqn, w.Reads s fqn → p.graph.dag.Path s.fqn fqn)
    (hbefore : AsBefore p origin s.fqn world)
    (hrest : s.enabled = true → ∃ record, UpToDate w s record origin) (status : Status) :
    (attempt w s none status).run.Ensures (terms p s.fqn) (SkipsAttempt p origin s.fqn) world := by
  rw [attempt]
  split
  · exact ensures_skip "disabled" hbefore
  · next henabled =>
    obtain ⟨record, hrecord⟩ := hrest (by simpa using henabled)
    refine ensures_request_bind (asks_own rfl) fun later hlater => ?_
    have hlater := hbefore.rely hlater
    obtain ⟨after, described, hrespond, hdescribed⟩ :=
      Simulator.respond_describe later.inner s.fqn
    obtain ⟨rfl, hafter⟩ := hdescribed.of_rest (hlater.1.trans hrecord.there) hrecord.rests
      hrecord.present
    refine ⟨_, .ok _, Provider.respond_recorded hrespond, ?_⟩
    have hafter := hlater.respond hp rfl hrespond (hafter.trans hrecord.there.symm)
      (⟨.describe s.fqn, .answer (.ok (some record.stack))⟩ :: later.exchanges)
    show (submit w s status (some record.stack)).run.Ensures _ _ _
    rw [submit]
    split
    · exact ensures_skip "locked" hafter
    · next hopen =>
      obtain ⟨hsettled, hsound, template, hrenders, hhash⟩ :=
        hrecord.settled (Bool.not_eq_true _ ▸ hopen)
      rw [if_neg hsound, hsettled, if_neg Bool.false_ne_true]
      exact ensures_updateStack_again hw hp hreads hafter hrecord.there hsettled hrenders hhash

/-- So the first call is the last one. -/
theorem ensures_again (hw : w.lookups = .standard) (hp : p.graph.Sound)
    (hreads : ∀ fqn, w.Reads s fqn → p.graph.dag.Path s.fqn fqn)
    (hbefore : AsBefore p origin s.fqn world)
    (hrest : s.enabled = true → ∃ record, UpToDate w s record origin) (status : Status) :
    ((action w s).advance none status).Ensures (terms p s.fqn)
      (AfterCall (Skips p origin s.fqn) none) world := by
  refine ensures_bind (ensures_attempt_again hw hp hreads hbefore hrest status)
    (fun result later hskips => ?_) fun _ _ => False.elim
  match result with
  | .ok (change, status) =>
    exact fun further hfurther => ⟨hskips.1, hskips.2.1, hskips.2.2.rely hfurther⟩
  | .error e => exact hskips.elim

theorem isOk_of_pending_or_skipped (h : status = .pending ∨ status.isSkipped = true)
    (hdone : status.isDone = true) : status.isOk = true := by
  cases status with
  | pending => cases hdone
  | skipped => rfl
  | _ => rcases h with h | h <;> cases h

/-- What the steps of a plan keep to that builds stacks that are up to date. -/
def contractAgain (p : Plan (Option Change)) (hp : p.graph.Sound)
    (hfor : p.IsFor w (action w) none) (hw : w.lookups = .standard) (origin : Simulator)
    (hreads : ∀ s ∈ w.members, s.fqn ∈ p.graph.dag.nodes →
      ∀ fqn, w.Reads s fqn → p.graph.dag.Path s.fqn fqn)
    (hrest : ∀ s ∈ w.members, s.fqn ∈ p.graph.dag.nodes → s.enabled = true →
      ∃ record, UpToDate w s record origin) :
    Contract p Provider.simulated.recorded where
  terms := terms p
  before name world := world.inner.records.get? name = origin.records.get? name
  between name change status world :=
    change = none ∧ (status = .pending ∨ status.isSkipped = true) ∧ AsBefore p origin name world
  between_rely hkept h := ⟨h.1, h.2.1, h.2.2.rely hkept⟩
  before_ask hne hasks hbefore :=
    (Simulator.respond_of_keepsTo hasks hne.symm _).record.trans hbefore
  rely_ask := @kept_respond p
  begins := by
    intro name step world hstep hbefore hdeps
    obtain ⟨s, -, -, rfl⟩ := hfor name step hstep
    refine ⟨rfl, .inl rfl, hbefore, fun m hm => ?_⟩
    obtain ⟨_, _, -, -, -, hrecord, -⟩ := hdeps m hm
    exact hrecord
  call := by
    rintro name step change status world hstep ⟨rfl, -, hbefore⟩ -
    obtain ⟨s, hs, rfl, rfl⟩ := hfor name step hstep
    have hnode := (hp.mem_nodes_iff s.fqn).2 ⟨_, hstep⟩
    refine (ensures_again hw hp (hreads s hs hnode) hbefore (hrest s hs hnode) status).mono ?_
    rintro (message | ⟨change, outcome⟩) later ⟨hchange, hskipped, hafter⟩
    · exact ⟨hchange, .inr hskipped, hafter⟩
    · exact ⟨hchange, .inr hskipped, hafter⟩

end Build

namespace Workspace

variable {c : Config} {w : Workspace} {id id' : String} {targets : Option (List String)}
  {p p' : Plan (Option Change)} {poll : PollPolicy} {sink : Sink} {walker : Walker}
  {origin : Simulator} {run : Run (Option Change) Simulator} {report : PlanReport}

/-- After a successful build all its stacks are up to date. -/
theorem upToDate_of_success (hvalid : c.validate = .ok ()) (hreads : c.ReadsOthers)
    (hw : w.Serves c) (planned : w.buildPlan id targets = .ok p)
    (horderly : origin.Throughout Simulator.Orderly)
    (hidle : ∀ s ∈ w.members, s.isUpdateBlocked = true → ∀ record,
      origin.records.get? s.fqn = some record → record.stack.state.isInProgress = false)
    (ended : Plan.Ends { p with poll, sink } .simulated walker origin run report)
    (success : report.outcome = .success) {s : Stack} (hs : s ∈ w.members)
    (hnode : s.fqn ∈ p.graph.dag.nodes) (henabled : s.enabled = true) :
    ∃ record, Build.UpToDate w s record run.world := by
  have hgraph := sound_plan planned
  have hfor : p.IsFor w (Build.action w) none := isFor_plan planned
  have hlast : run.world.Throughout Simulator.Orderly :=
    Plan.Ends.preserves (p := { p with poll, sink })
      (P := fun world => world.Throughout Simulator.Orderly) hgraph ended
      (fun world request h => Simulator.lasting_orderly.respond h request) horderly
  obtain ⟨exchanges, hnoted⟩ := ended.recorded
  obtain ⟨change, status, -, hok, s', hs', hfqn, -, hstands⟩ :=
    Plan.Ends.keeps_of_success (p := { p with poll, sink }) hgraph
      (Build.contract _ hgraph hfor hw.lookups origin horderly) hnoted (fun _ _ => ⟨rfl, rfl⟩)
      success hnode
  obtain rfl := List.inj_on_of_nodup_map (nodup_fqns planned) hs' hs hfqn
  exact (hstands henabled).upToDate hok hlast
    (fun fqn hfqn => hw.path_of_reads hvalid hreads planned hs hnode hfqn) (hidle s' hs)

/-- A build of stacks that are all up to date is a success that skips every step and leaves all
records as they were. -/
theorem build_of_upToDate (hvalid : c.validate = .ok ()) (hreads : c.ReadsOthers) (hw : w.Serves c)
    (planned : w.buildPlan id targets = .ok p)
    (hrest : ∀ s ∈ w.members, s.fqn ∈ p.graph.dag.nodes → s.enabled = true →
      ∃ record, Build.UpToDate w s record origin)
    (hquiet : ∀ journal, sink.breaksAt journal = false)
    (ended : Plan.Ends { p with poll, sink } .simulated walker origin run report)
    (uncancelled : run.cancelled = false) :
    report.outcome = .success ∧ (∀ line ∈ report.steps, line.status.isSkipped = true) ∧
      run.world.records = origin.records := by
  have hgraph := sound_plan planned
  have hfor : p.IsFor w (Build.action w) none := isFor_plan planned
  obtain ⟨exchanges, hnoted⟩ := ended.recorded
  let c := Build.contractAgain { p with poll, sink } hgraph hfor hw.lookups origin
    (fun s hs hnode fqn hfqn => hw.path_of_reads hvalid hreads planned hs hnode hfqn) hrest
  have hsuccess : report.outcome = .success :=
    Plan.Ends.success_of_contract (p := { p with poll, sink }) hgraph c hnoted (fun _ _ => rfl)
      (fun hbetween hdone => Build.isOk_of_pending_or_skipped hbetween.2.1 hdone) hquiet uncancelled
  have hkept := fun name (hname : name ∈ p.graph.dag.nodes) =>
    Plan.Ends.keeps_of_success (p := { p with poll, sink }) hgraph c hnoted (fun _ _ => rfl)
      hsuccess hname
  refine ⟨hsuccess, fun line hline => ?_, Table.ext_get? fun name => ?_⟩
  · obtain ⟨hname, hstatus⟩ :=
      Plan.Ends.status?_of_mem_steps (p := { p with poll, sink }) hgraph ended hline
    obtain ⟨_, status, hfound, hok, -, hskipped, -⟩ := hkept line.name hname
    obtain rfl := Option.some.inj (hstatus.symm.trans hfound)
    rcases hskipped with hpending | hskipped
    · rw [hpending] at hok
      cases hok
    · exact hskipped
  · by_cases hname : name ∈ p.graph.dag.nodes
    · obtain ⟨_, _, -, -, -, -, hrecord, -⟩ := hkept name hname
      exact hrecord
    · -- The contract says nothing of stacks without a step. These are nobody's to touch.
      have hapart := keepsApart_buildPlan (hw.wired hvalid hreads.readsConfigured) planned
      obtain ⟨last, start, own, hlast⟩ := Plan.Ends.exists_atRest (p := { p with poll, sink })
        hgraph hapart hquiet ended uncancelled
      have hnot : name ∉ last.walk.dispatched := fun hdispatched =>
        hname (hlast.sound.walkDag ▸ hlast.sound.walk.dispatched_subset hdispatched)
      rw [hlast.world]
      exact (hlast.worlds.untouched name hnot).1.record

/-- Let the variables of a sound configuration read outputs of other configured stacks only, and let
no stack that is to be left alone be in progress. If a build of its stacks was a success, the same
build once more is one too, as soon as it ends: every step is skipped, and all stacks stay as they
were. So it is for all targets, environments and forced stacks, whatever has happened to the
provider before, and whatever the schedules. -/
theorem build_twice (hvalid : c.validate = .ok ()) (hreads : c.ReadsOthers) (hw : w.Serves c)
    (planned : w.buildPlan id targets = .ok p) (planned' : w.buildPlan id' targets = .ok p')
    (events : List Simulator.Event)
    (idle : ∀ s ∈ w.members, s.isUpdateBlocked = true → ∀ record,
      (({} : Simulator).after events).records.get? s.fqn = some record →
        record.stack.state.isInProgress = false)
    (ended : Plan.Ends { p with poll, sink } .simulated walker (({} : Simulator).after events) run
      report)
    (success : report.outcome = .success) {poll' : PollPolicy} {sink' : Sink}
    (quiet : ∀ journal, sink'.breaksAt journal = false) {walker' : Walker}
    {run' : Run (Option Change) Simulator} {report' : PlanReport}
    (ended' : Plan.Ends { p' with poll := poll', sink := sink' } .simulated walker' run.world run'
      report')
    (uncancelled : run'.cancelled = false) :
    report'.outcome = .success ∧ (∀ line ∈ report'.steps, line.status.isSkipped = true) ∧
      run'.world.records = run.world.records := by
  have horderly : (({} : Simulator).after events).Throughout Simulator.Orderly :=
    Simulator.lasting_orderly.after Simulator.Lasting.throughout_empty fun _ _ _ => nofun
  refine build_of_upToDate hvalid hreads hw planned' (fun s hs hnode henabled => ?_) quiet ended'
    uncancelled
  rw [graph_plan planned planned'] at hnode
  exact upToDate_of_success hvalid hreads hw planned horderly idle ended success hs hnode henabled

end Workspace

/-! ## Two builds in a row -/

/-- A locked stack, and one that reads an output of it. -/
def Config.reading : Config where
  scope := "n"
  execution := {}
  definitions :=
    [{ name := "a", locked := true },
      { name := "b", vars := .ofList [("u", "$\x7boutput a::U\x7d")],
        templateBody := some "\x7b\x7bu\x7d\x7d" }]

/-- The locked stack is there with its output. -/
def Simulator.reading : List Simulator.Event :=
  [.outputs "n-a" (.ofList [("U", "v")]), .request (.create ⟨"n-a", .ofBody "t", .empty⟩),
    .request (.describe "n-a")]

theorem Config.readsOthers_reading : Config.reading.ReadsOthers := by
  have htokens : tokenize "$\x7boutput a::U\x7d" = .ok [.lookup "output" "a::U"] := by cbv
  have hsplit : splitOutput "a::U" = .ok ("a", "U") := by cbv
  intro d hd value hvalue stack hreads
  simp only [Config.reading, List.mem_cons, List.not_mem_nil, or_false] at hd
  rcases hd with rfl | rfl
  · cases hvalue
  · obtain rfl : value = "$\x7boutput a::U\x7d" := List.mem_singleton.1 hvalue
    obtain ⟨tokens, argument, key, htext, hlookup, hread⟩ := hreads
    rw [htokens] at htext
    cases htext
    cases List.mem_singleton.1 hlookup
    rw [hsplit] at hread
    cases hread
    exact ⟨by decide, _, List.mem_cons_self, rfl⟩

namespace Workspace

/-- The workspace of that configuration. -/
def reading : Workspace where
  scope := "n"
  delimiter := "-"
  execution := {}
  members :=
    [⟨"a", "n-a", "inline", none, [], .empty, .empty, true, true, false⟩,
      ⟨"b", "n-b", "inline", some "\x7b\x7bu\x7d\x7d", ["a"],
        .ofList [("u", "$\x7boutput a::U\x7d")], .empty, true, false, false⟩]

theorem serves_reading : reading.Serves Config.reading := by
  have hof : ofConfig Config.reading = .ok reading := by cbv
  exact ⟨reading, {}, [], hof, rfl⟩

/-- The second stack is created. In the build after that it is found up to date. -/
theorem plays_reading :
    (StepGraph.ofSteps (reading.members.map
      (reading.stepOf (Build.action reading) none))).toOption.any (fun graph =>
        (Plan.plays { id := "one", description := "Create/Update stacks", graph, poll := .fixed 0 }
          .simulated .sequential (({} : Simulator).after Simulator.reading)
          (visit "n-a" 6 ++ List.replicate 7 (.work "n-b"))).any fun mid =>
            mid.goesOnAtOnce "n-b" &&
            ((mid.setPhase "n-b" .yielding).play .simulated (visit "n-b" 5)).any fun last =>
              (last.isOver && last.workers.isEmpty) && last.finish.2.any fun report =>
                report.outcome == .success &&
                  last.finish.1.status? "n-b" == some (.complete (some Change.create.reason)) &&
                  (Plan.plays
                    { id := "two", description := "Create/Update stacks", graph, poll := .fixed 0 }
                    .simulated .unbounded last.finish.1.world
                    (visit "n-a" 6 ++ visit "n-b" 8)).any fun last' =>
                      (last'.isOver && last'.workers.isEmpty) && last'.finish.2.isSome &&
                        !last'.finish.1.cancelled) = true := by
  decide +kernel

/-- The first of two builds creates a stack, and the second one skips all steps. -/
theorem build_twice_reading :
    ∃ (p p' : Plan (Option Change)) (run run' : Run (Option Change) Simulator)
      (report report' : PlanReport),
      reading.buildPlan "one" none = .ok p ∧ reading.buildPlan "two" none = .ok p' ∧
      Plan.Ends { p with poll := .fixed 0 } .simulated .sequential
        (({} : Simulator).after Simulator.reading) run report ∧
      Plan.Ends { p' with poll := .fixed 0 } .simulated .unbounded run.world run' report' ∧
      run.status? "n-b" = some (.complete (some Change.create.reason)) ∧
      report'.outcome = .success ∧ (∀ line ∈ report'.steps, line.status.isSkipped = true) ∧
      run'.world.records = run.world.records := by
  have hvalid : Config.reading.validate = .ok () := by cbv
  obtain ⟨graph, hgraph, h⟩ := (Option.any_eq_true _ _).1 plays_reading
  obtain ⟨mid, hmid, h⟩ := (Option.any_eq_true _ _).1 h
  obtain ⟨hgoes, h⟩ := Bool.and_eq_true_iff.1 h
  obtain ⟨last, hlast, h⟩ := (Option.any_eq_true _ _).1 h
  obtain ⟨hdone, h⟩ := Bool.and_eq_true_iff.1 h
  obtain ⟨report, hreport, h⟩ := (Option.any_eq_true _ _).1 h
  rw [Bool.and_eq_true, Bool.and_eq_true, beq_iff_eq, beq_iff_eq] at h
  obtain ⟨⟨hsuccess, hcreated⟩, h⟩ := h
  obtain ⟨last', hlast', h⟩ := (Option.any_eq_true _ _).1 h
  rw [Bool.and_eq_true, Bool.and_eq_true, Bool.not_eq_true'] at h
  obtain ⟨⟨hdone', hreport'⟩, huncancelled⟩ := h
  obtain ⟨report', hreport'⟩ := Option.isSome_iff_exists.1 hreport'
  have hplan := buildPlan_eq_ok (Except.toOption_eq_some_iff.1 hgraph)
  have hends := Plan.ends_of_plays (Plan.plays_of_goesOnAtOnce hmid hgoes hlast) hdone hreport
  have hends' := Plan.ends_of_plays hlast' hdone' hreport'
  have hidle : ∀ s ∈ reading.members, s.isUpdateBlocked = true → ∀ record,
      (({} : Simulator).after Simulator.reading).records.get? s.fqn = some record →
        record.stack.state.isInProgress = false := by
    have hstate : (({} : Simulator).after Simulator.reading).stateOf? "n-a" =
        some .createComplete := by
      decide +kernel
    intro s hs hblocked record hrecord
    simp only [reading, List.mem_cons, List.not_mem_nil, or_false] at hs
    rcases hs with rfl | rfl
    · rw [Simulator.stateOf?, hrecord] at hstate
      have hcomplete : record.stack.state = .createComplete := Option.some.inj hstate
      rw [hcomplete]
      rfl
    · cases hblocked
  obtain ⟨hsuccess', hskipped, hrecords⟩ := build_twice hvalid Config.readsOthers_reading
    serves_reading (hplan "one") (hplan "two") Simulator.reading hidle hends hsuccess (fun _ => rfl)
    hends' huncancelled
  exact ⟨_, _, _, _, report, report', hplan "one", hplan "two", hends, hends', hcreated, hsuccess',
    hskipped, hrecords⟩

end Workspace

end Rollout

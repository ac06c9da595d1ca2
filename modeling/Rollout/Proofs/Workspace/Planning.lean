import Rollout.Proofs.Lookup.Extraction
import Rollout.Proofs.Plan.Entries
import Rollout.Proofs.Plan.Targets
import Rollout.Proofs.Workspace.OutputNames

/-!
# Which configurations have plans

A configuration is judged in three places: it is validated, its stacks are made, and a graph is made
of their steps. What passes the first may be refused by the others.

* `Workspace.exists_ofConfig_iff`: when the stacks can be made.
* `Workspace.entries`: the entries of the graph of all steps, which declare what the steps need.
* `Workspace.exists_plan_iff`: for which targets there is a plan, whatever its steps do.
* `Workspace.plan_none_eq_ok`: the steps and the graph of a plan without targets.
* `Workspace.Serves.admissible_entries_iff`: when a graph can be made of the steps.
* `Workspace.plans_of_config`: from a configuration to its plans.
-/

namespace Rollout

namespace Workspace

variable {c : Config} {w : Workspace}

/-- The stacks of a configuration can be made if all its variables are readable. -/
theorem exists_ofConfig_iff :
    (∃ w, ofConfig c = .ok w) ↔ ∀ d ∈ c.definitions, ∀ value ∈ d.vars.values, Readable value := by
  unfold ofConfig
  rw [Except.exists_bind_ok_iff]
  calc
    _ ↔ ∃ members, c.definitions.mapM (fun d => Stack.ofDefinition d c.scope c.delimiter) =
        .ok members := exists_congr fun _ => and_iff_left ⟨_, rfl⟩
    _ ↔ ∀ d ∈ c.definitions, ∃ s, Stack.ofDefinition d c.scope c.delimiter = .ok s :=
      Except.exists_mapM_ok_iff
    _ ↔ _ := forall₂_congr fun _ _ => Stack.exists_ofDefinition_iff

/-! ## What steps need -/

/-- The entries of the graph of all steps, whatever the steps do. -/
def entries (w : Workspace) : List (String × List String) :=
  w.members.map fun s => (s.fqn, s.requires.map w.fqnFor)

theorem names_entries (w : Workspace) : w.entries.map (·.1) = w.members.map (·.fqn) := by
  unfold entries
  rw [List.map_map]
  rfl

theorem declares_entries_iff {a b : String} : Dag.Declares w.entries a b ↔ w.Needs a b := by
  unfold Dag.Declares entries Needs
  simp

section Plans

variable {μ : Type} {id description : String} {targets : Option (List String)} {reverse : Bool}
  {action : Stack → Action μ} {memo : μ}

theorem entriesOf_steps (action : Stack → Action μ) (memo : μ) :
    StepGraph.entriesOf (w.members.map (w.stepOf action memo)) = w.entries := by
  unfold StepGraph.entriesOf entries
  rw [List.map_map]
  rfl

theorem isAnswered_steps_iff {target : String} :
    Plan.IsAnswered (w.members.map (w.stepOf action memo)) target ↔
      ∃ s ∈ w.members, s.fqn = target ∨ s.name = target := by
  unfold Plan.IsAnswered Step.AnswersTo
  simp only [List.mem_map, exists_exists_and_eq_and]
  rfl

/-- There is a plan if a graph can be made of the entries and each target is a name of a stack,
inside the configuration or at the provider. What the steps do plays no role. -/
theorem exists_plan_iff :
    (∃ p, w.plan id description targets reverse action memo = .ok p) ↔
      Dag.Admissible w.entries ∧ ∀ names, targets = some names → ∀ target ∈ names,
        ∃ s ∈ w.members, s.fqn = target ∨ s.name = target := by
  have hplan : (∃ p, w.plan id description targets reverse action memo = .ok p) ↔
      ∃ q, Plan.build id description (w.members.map (w.stepOf action memo)) targets reverse =
        .ok q := by
    unfold plan
    rw [Except.exists_bind_ok_iff]
    exact exists_congr fun _ => and_iff_left ⟨_, rfl⟩
  rw [hplan, Plan.exists_build_iff, StepGraph.exists_ofSteps_iff, entriesOf_steps]
  simp only [isAnswered_steps_iff]

/-- Without targets a plan has the steps of all stacks, in the order of the stacks, and the graph of
the entries. In reverse the graph is turned round. -/
theorem plan_none_eq_ok {p : Plan μ}
    (h : w.plan id description none reverse action memo = .ok p) :
    p.keys = w.members.map (·.fqn) ∧
      (∀ a b, p.graph.dag.Edge a b ↔ if reverse then w.Needs b a else w.Needs a b) ∧
      p.graph.dag = if reverse then (Dag.ofEntries w.entries).transpose
        else Dag.ofEntries w.entries := by
  obtain ⟨q, hq, hgraph⟩ := plan_eq_ok h
  obtain ⟨g, hg, hq⟩ := Except.bind_eq_ok_iff.1 hq
  cases hq
  refine ⟨?_, fun a b => ?_, ?_⟩
  · rw [← Plan.names_toList (sound_plan h), hgraph, StepGraph.toList_turned hg reverse,
      List.map_map]
    rfl
  · rw [hgraph, StepGraph.edge_turned_iff hg]
    rw [requires_steps]
  · obtain ⟨-, rfl⟩ := StepGraph.ofSteps_eq_ok_iff.1 hg
    rw [hgraph, ← entriesOf_steps action memo]
    cases reverse <;> rfl

end Plans

namespace Serves

variable (hw : w.Serves c)
include hw

/-- What a stack requires is named by a definition or read by the variables of the stack. -/
theorem named_or_read {s : Stack} (hs : s ∈ w.members) {name : String} (hname : name ∈ s.requires) :
    (∃ d ∈ c.definitions, name ∈ d.requires) ∨
      ∃ value ∈ s.vars.values, ReadsOutput value name := by
  obtain ⟨base, environment, forced, hbase, rfl⟩ := hw
  obtain ⟨old, hold, rfl⟩ := List.mem_map.1 hs
  obtain ⟨d, hd, hof⟩ := Except.exists_of_mem_mapM (ofConfig_eq_ok hbase).2 hold
  obtain ⟨-, hvars, hrequires⟩ := forced_eq forced old
  obtain ⟨-, hvars', hrequires'⟩ := Stack.ofDefinition_eq_ok hof
  rw [hrequires] at hname
  rw [hvars, hvars']
  exact ((Stack.mem_requirements_iff hrequires').1 hname).2.imp_left fun h => ⟨d, hd, h⟩

/-- What the steps need are steps if what the stacks read are. What the definitions name is
configured anyway. -/
theorem needs_closed_iff (hvalid : c.validate = .ok ()) :
    (∀ a b, w.Needs a b → b ∈ w.members.map (·.fqn)) ↔
      ∀ s ∈ w.members, ∀ value ∈ s.vars.values, ∀ name, ReadsOutput value name →
        ∃ t ∈ w.members, w.fqnFor name = t.fqn := by
  constructor
  · intro h s hs value hvalue name hreads
    by_cases hown : name = s.name
    · exact ⟨s, hs, hown ▸ hw.fqnFor hvalid hs⟩
    · have hrequired := hw.mem_requires_of_reads hs hvalue hreads hown
      obtain ⟨t, ht, hfqn⟩ := List.mem_map.1 (h _ _ ⟨s, hs, rfl, name, hrequired, rfl⟩)
      exact ⟨t, ht, hfqn.symm⟩
  · rintro h _ _ ⟨s, hs, rfl, name, hname, rfl⟩
    rcases hw.named_or_read hs hname with ⟨d, hd, hnamed⟩ | ⟨value, hvalue, hreads⟩
    · obtain ⟨other, hother, rfl⟩ := Config.exists_of_named hvalid hd hnamed
      obtain ⟨t, ht, htname, -⟩ := hw.exists_member hother
      rw [← htname, hw.fqnFor hvalid ht]
      exact List.mem_map_of_mem ht
    · obtain ⟨t, ht, hfqn⟩ := h s hs value hvalue name hreads
      rw [hfqn]
      exact List.mem_map_of_mem ht

/-- The entries make a graph if the stacks have names of their own at the provider, what they read
is configured under the name that the plan takes it for, and they do not need each other in a
circle. -/
theorem admissible_entries_iff (hvalid : c.validate = .ok ()) :
    Dag.Admissible w.entries ↔
      (w.members.map (·.fqn)).Nodup ∧
      (∀ s ∈ w.members, ∀ value ∈ s.vars.values, ∀ name, ReadsOutput value name →
        ∃ t ∈ w.members, w.fqnFor name = t.fqn) ∧
      ∀ fqn, ¬ Relation.TransGen w.Needs fqn fqn := by
  have hdeclares : Dag.Declares w.entries = w.Needs :=
    funext fun a => funext fun b => propext declares_entries_iff
  rw [Dag.admissible_iff, hdeclares, names_entries, hw.needs_closed_iff hvalid]

end Serves

/-- The stacks of a sound configuration can be made if its variables are readable. There is a plan
that builds them if they have names of their own at the provider, what they read is configured under
the name that the plan takes it for, and they do not need each other in a circle. There is a plan
that destroys them, for some targets or for none, if there is one that builds them; without targets
its graph is that of the other, turned round, with the steps in the same order. -/
theorem plans_of_config (hvalid : c.validate = .ok ()) :
    ((∃ w, ofConfig c = .ok w) ↔
      ∀ d ∈ c.definitions, ∀ value ∈ d.vars.values, Readable value) ∧
    ∀ w : Workspace, w.Serves c →
      (∀ id, (∃ p, w.buildPlan id none = .ok p) ↔
        (w.members.map (·.fqn)).Nodup ∧
        (∀ s ∈ w.members, ∀ value ∈ s.vars.values, ∀ name, ReadsOutput value name →
          ∃ t ∈ w.members, w.fqnFor name = t.fqn) ∧
        ∀ fqn, ¬ Relation.TransGen w.Needs fqn fqn) ∧
      (∀ id id' targets,
        (∃ p, w.buildPlan id targets = .ok p) ↔ ∃ q, w.destroyPlan id' targets = .ok q) ∧
      ∀ id id' p q, w.buildPlan id none = .ok p → w.destroyPlan id' none = .ok q →
        q.graph.dag = p.graph.dag.transpose ∧
          (∀ a b, p.graph.dag.Edge a b ↔ w.Needs a b) ∧
          (∀ a b, q.graph.dag.Edge a b ↔ w.Needs b a) ∧
          p.keys = w.members.map (·.fqn) ∧ q.keys = w.members.map (·.fqn) := by
  refine ⟨exists_ofConfig_iff, fun w hw => ⟨fun id => ?_, fun id id' targets => ?_, ?_⟩⟩
  · unfold buildPlan
    rw [exists_plan_iff, hw.admissible_entries_iff hvalid]
    exact and_iff_left nofun
  · unfold buildPlan destroyPlan
    rw [exists_plan_iff, exists_plan_iff]
  · intro id id' p q hp hq
    obtain ⟨hkeys, hedge, hdag⟩ := plan_none_eq_ok hp
    obtain ⟨hkeys', hedge', hdag'⟩ := plan_none_eq_ok hq
    rw [if_neg Bool.false_ne_true] at hdag
    rw [if_pos rfl, ← hdag] at hdag'
    exact ⟨hdag', hedge, hedge', hkeys, hkeys'⟩

end Workspace

/-- A stack that reads an output of one that there is not. -/
def Config.haunted : Config where
  scope := "n"
  execution := {}
  definitions :=
    [{ name := "a", vars := .ofList [("u", "$\x7boutput ghost::U\x7d")], templateBody := some "t" }]

namespace Workspace

/-- The workspace of that configuration. -/
def haunted : Workspace where
  scope := "n"
  delimiter := "-"
  execution := {}
  members :=
    [⟨"a", "n-a", "inline", some "t", ["ghost"], .ofList [("u", "$\x7boutput ghost::U\x7d")],
      .empty, true, false, false⟩]

theorem serves_haunted : haunted.Serves Config.haunted := by
  apply serves_ofConfig
  cbv

theorem tokenize_haunted :
    tokenize "$\x7boutput ghost::U\x7d" = .ok [.lookup "output" "ghost::U"] := by
  cbv

theorem splitOutput_haunted : splitOutput "ghost::U" = .ok ("ghost", "U") := by
  cbv

/-- The name that is borrowed is that of a stack to the plan, so there are plans. The name of a
stack that there is not passes as well, until a plan is made. -/
theorem plans_of_config_borrowed :
    (∃ p q, borrowed.buildPlan "one" none = .ok p ∧ borrowed.destroyPlan "two" none = .ok q ∧
      q.graph.dag = p.graph.dag.transpose ∧ q.keys = ["n-r", "n-b", "n-s"]) ∧
    Config.haunted.validate = .ok () ∧ (∃ w, ofConfig Config.haunted = .ok w) ∧
      ¬ ∃ p, haunted.buildPlan "one" none = .ok p := by
  have hborrowed : Config.borrowed.validate = .ok () := by cbv
  have hhaunted : Config.haunted.validate = .ok () := by cbv
  obtain ⟨hmade, hplans⟩ := plans_of_config hhaunted
  refine ⟨?_, hhaunted, hmade.2 ?_, fun hplan => ?_⟩
  · obtain ⟨-, hboth, hturned⟩ := (plans_of_config hborrowed).2 borrowed serves_borrowed
    obtain ⟨p, hp, -⟩ := exists_plan_borrowed
    obtain ⟨q, hq⟩ := (hboth "one" "two" none).1 ⟨p, hp⟩
    obtain ⟨hdag, -, -, -, hkeys⟩ := hturned "one" "two" p q hp hq
    exact ⟨p, q, hp, hq, hdag, hkeys⟩
  · intro d hd value hvalue
    cases List.mem_singleton.1 hd
    cases List.mem_singleton.1 hvalue
    refine ⟨_, tokenize_haunted, fun argument hargument => ?_⟩
    cases List.mem_singleton.1 hargument
    exact exists_splitOutput_iff.1 ⟨_, splitOutput_haunted⟩
  · obtain ⟨-, hread, -⟩ := ((hplans haunted serves_haunted).1 "one").1 hplan
    obtain ⟨t, ht, hfqn⟩ := hread _ List.mem_cons_self _ List.mem_cons_self "ghost"
      ⟨_, _, _, tokenize_haunted, List.mem_singleton_self _, splitOutput_haunted⟩
    cases List.mem_singleton.1 ht
    exact absurd hfqn (by decide +kernel)

end Workspace

end Rollout

import Mathlib
import Rollout.Plan.Basic
import Rollout.Proofs.Plan.StepGraph

/-!
# Plans that were built

* `Plan.build_eq_ok`: the graph of a plan is that of its steps, turned round if the plan is reversed,
  and narrowed if it has targets.
* `Plan.around_build`: targets change nothing around the steps that are kept.
* `Plan.edge_build_iff`, `Plan.path_build_iff`: what a step of the plan depends on, at once or at
  all, in terms of what steps require.
* `Plan.exists_executionOrder`: what the order of execution promises.
* `Plan.pair`: a small plan on which later results are tried.
-/

namespace Rollout

/-- Turned round, a list without repetitions has its members at the places counted from the end. -/
theorem idxOf_reverse {α : Type} [DecidableEq α] {l : List α} (hl : l.Nodup) {a : α}
    (ha : a ∈ l) : l.reverse.idxOf a = l.length - 1 - l.idxOf a := by
  induction l with
  | nil => exact absurd ha List.not_mem_nil
  | cons b l ih =>
    obtain ⟨hb, hl⟩ := List.nodup_cons.1 hl
    rw [List.reverse_cons, List.length_cons]
    by_cases h : a = b
    · subst h
      rw [List.idxOf_append_of_notMem (by simpa using hb), List.length_reverse]
      simp
    · have hmem : a ∈ l := (List.mem_cons.1 ha).resolve_left h
      have hlt := List.idxOf_lt_length_of_mem hmem
      rw [List.idxOf_append_of_mem (List.mem_reverse.2 hmem), ih hl hmem,
        List.idxOf_cons_ne _ (Ne.symm h)]
      omega

namespace StepGraph

variable {μ : Type} {steps : List (Step μ)} {g : StepGraph μ}

theorem built_turned (ok : ofSteps steps = .ok g) (reverse : Bool) :
    (if reverse then g.transpose else g).Built := by
  cases reverse with
  | true => exact .transpose (.ofSteps ok)
  | false => exact .ofSteps ok

theorem edge_turned_iff (ok : ofSteps steps = .ok g) {reverse : Bool} {a b : String} :
    (if reverse then g.transpose else g).dag.Edge a b ↔
      if reverse then Requires steps b a else Requires steps a b := by
  cases reverse with
  | true =>
    have hsimple := (Sound.ofSteps ok).wellFormed.simple
    exact (Dag.edge_transpose_iff hsimple).trans (edge_ofSteps_iff ok)
  | false => exact edge_ofSteps_iff ok

theorem path_turned_iff (ok : ofSteps steps = .ok g) {reverse : Bool} {a b : String} :
    (if reverse then g.transpose else g).dag.Path a b ↔
      if reverse then Relation.TransGen (Requires steps) b a
      else Relation.TransGen (Requires steps) a b := by
  have hpath : ∀ x y, g.dag.Path x y ↔ Relation.TransGen (Requires steps) x y := fun x y =>
    Dag.path_iff_transGen_of_edge fun _ _ => edge_ofSteps_iff ok
  cases reverse with
  | true =>
    have hsimple := (Sound.ofSteps ok).wellFormed.simple
    exact (Dag.path_transpose_iff hsimple).trans (hpath b a)
  | false => exact hpath a b

end StepGraph

namespace Plan

variable {μ : Type} {id description : String} {steps : List (Step μ)}
  {targets : Option (List String)} {reverse : Bool} {p : Plan μ}

theorem build_eq_ok (built : build id description steps targets reverse = .ok p) :
    ∃ g, StepGraph.ofSteps steps = .ok g ∧
      (p.graph = (if reverse then g.transpose else g) ∨
        ∃ names, (if reverse then g.transpose else g).restrict names = .ok p.graph) := by
  rw [build, Except.bind_eq_ok_iff] at built
  obtain ⟨g, hg, built⟩ := built
  refine ⟨g, hg, ?_⟩
  cases targets with
  | none =>
    cases built
    exact .inl rfl
  | some targets =>
    obtain ⟨names, -, built⟩ := Except.bind_eq_ok_iff.1 built
    obtain ⟨narrowed, hnarrowed, built⟩ := Except.bind_eq_ok_iff.1 built
    cases built
    exact .inr ⟨names, hnarrowed⟩

theorem built_build (built : build id description steps targets reverse = .ok p) :
    p.graph.Built := by
  obtain ⟨g, hg, hgraph⟩ := build_eq_ok built
  have hturned := StepGraph.built_turned hg reverse
  rcases hgraph with hgraph | ⟨names, hgraph⟩
  · rw [hgraph]
    exact hturned
  · exact .restrict hturned hgraph

theorem sound_build (built : build id description steps targets reverse = .ok p) :
    p.graph.Sound :=
  (built_build built).sound

/-- The steps of a plan are among those it was built of. -/
theorem mem_of_get? (built : build id description steps targets reverse = .ok p) {n : String}
    {step : Step μ} (h : p.graph.get? n = some step) : step ∈ steps := by
  obtain ⟨g, hg, hgraph⟩ := build_eq_ok built
  have hturned : ∀ step, (if reverse then g.transpose else g).get? n = some step → step ∈ steps := by
    intro step hstep
    have hfound : g.get? n = some step := by
      split at hstep <;> exact hstep
    exact ((StepGraph.get?_ofSteps_eq_some_iff hg).1 hfound).1
  rcases hgraph with hgraph | ⟨names, hgraph⟩
  · exact hturned step (hgraph ▸ h)
  · obtain ⟨kept, -, -, -, hsteps⟩ := StepGraph.restrict_eq_ok hgraph
    exact hturned step ((StepGraph.get?_restrict_eq_some_iff
      (sound_build built).wellFormed.nodup_nodes hsteps).1 h).2

/-- The identity of a plan and what it is for play no role for its graph. -/
theorem graph_build {id' description' : String} {q : Plan μ}
    (built : build id description steps targets reverse = .ok p)
    (built' : build id' description' steps targets reverse = .ok q) : q.graph = p.graph := by
  have hgraph : ∀ {id description : String} {p : Plan μ},
      build id description steps targets reverse = .ok p →
        (build "" "" steps targets reverse).map (·.graph) = .ok p.graph := by
    intro id description p built
    obtain ⟨g, hg, built⟩ := Except.bind_eq_ok_iff.1 built
    rw [build, hg]
    cases targets with
    | none =>
      cases built
      rfl
    | some targets =>
      obtain ⟨names, hnames, built⟩ := Except.bind_eq_ok_iff.1 built
      obtain ⟨narrowed, hnarrowed, built⟩ := Except.bind_eq_ok_iff.1 built
      cases built
      show Except.map _ ((resolveTargets _ targets).bind _) = _
      rw [hnames]
      show Except.map _ ((StepGraph.restrict _ names).bind _) = _
      rw [hnarrowed]
      rfl
  exact Except.ok.inj ((hgraph built').symm.trans (hgraph built))

/-- Around its steps a plan is like the graph of all steps, turned round if the plan is reversed. -/
theorem around_build (built : build id description steps targets reverse = .ok p) :
    ∃ g, StepGraph.ofSteps steps = .ok g ∧ ∀ a ∈ p.graph.dag.nodes, ∀ b,
      (p.graph.dag.Edge a b ↔ (if reverse then g.transpose else g).dag.Edge a b) ∧
      (p.graph.dag.Path a b ↔ (if reverse then g.transpose else g).dag.Path a b) := by
  obtain ⟨g, hg, hgraph⟩ := build_eq_ok built
  refine ⟨g, hg, fun a ha b => ?_⟩
  rcases hgraph with hgraph | ⟨names, hgraph⟩
  · rw [hgraph]
    exact ⟨Iff.rfl, Iff.rfl⟩
  · obtain ⟨kept, hkept, -, hdag, -⟩ := StepGraph.restrict_eq_ok hgraph
    rw [hdag, Dag.mem_nodes_keep_iff] at ha
    rw [hdag]
    exact ⟨(Dag.edge_keep_iff hkept).trans (and_iff_right ha.2),
      (Dag.path_keep_iff hkept).trans (and_iff_right ha.2)⟩

/-- The edges of a plan lead from a step to those that it requires or, in reverse, to those that
require it. -/
theorem edge_build_iff (built : build id description steps targets reverse = .ok p) {a : String}
    (ha : a ∈ p.graph.dag.nodes) (b : String) :
    p.graph.dag.Edge a b ↔
      if reverse then StepGraph.Requires steps b a else StepGraph.Requires steps a b := by
  obtain ⟨g, hg, haround⟩ := around_build built
  exact (haround a ha b).1.trans (StepGraph.edge_turned_iff hg)

/-- A step of the plan depends on the steps it requires or, in reverse, on those that require it. -/
theorem path_build_iff (built : build id description steps targets reverse = .ok p) {a : String}
    (ha : a ∈ p.graph.dag.nodes) (b : String) :
    p.graph.dag.Path a b ↔
      if reverse then Relation.TransGen (StepGraph.Requires steps) b a
      else Relation.TransGen (StepGraph.Requires steps) a b := by
  obtain ⟨g, hg, haround⟩ := around_build built
  exact (haround a ha b).2.trans (StepGraph.path_turned_iff hg)

/-! ## The order of execution -/

theorem names_toList (hg : p.graph.Sound) : p.graph.toList.map (·.name) = p.keys :=
  hg.names_stepsOf fun _ hn => hn

/-- The order of execution has each step once, after all that it depends on. -/
theorem exists_executionOrder (hg : p.graph.Sound) :
    ∃ order, p.executionOrder = .ok order ∧ order.Perm p.keys ∧
      ∀ a b, p.graph.dag.Path a b → order.idxOf b < order.idxOf a := by
  have hsimple := hg.wellFormed.simple
  obtain ⟨order, horder⟩ := hg.wellFormed.exists_sort
  have hperm := hsimple.sort_perm horder
  refine ⟨order.reverse, ?_, (List.reverse_perm order).trans hperm, fun a b hab => ?_⟩
  · rw [executionOrder, horder]
  · have hnodup : order.Nodup := hperm.nodup_iff.2 hg.wellFormed.nodup_nodes
    have ha : a ∈ order := hperm.mem_iff.2 hab.mem_nodes
    have hb : b ∈ order := hperm.mem_iff.2 (hsimple.path_mem_nodes hab)
    have hlt := hsimple.idxOf_lt_of_path horder hab
    have hlen := List.idxOf_lt_length_of_mem hb
    rw [idxOf_reverse hnodup ha, idxOf_reverse hnodup hb]
    omega

end Plan

/-! ## Two steps -/

/-- A step whose action is called once and ends with some status. -/
def Step.once (name : String) (requires : List String) (status : Status) : Step Unit where
  name := name
  shortName := name
  requires := requires
  action := ⟨fun _ _ => .done ((), .settled status)⟩
  memo := ()

/-- A provider that nobody asks. -/
def Provider.idle : Provider Unit := ⟨fun world _ => (world, .crash none)⟩

/-- Two steps. The second requires the first, which ends with some status. -/
def Step.pair (status : Status) : List (Step Unit) :=
  [.once "first" [] status, .once "second" ["first"] (.complete none)]

/-- The plan of the two steps. -/
def Plan.pair (status : Status) (poll : PollPolicy) : Plan Unit where
  id := "run"
  description := ""
  graph :=
    ⟨.ofList
      [("first", .once "first" [] status), ("second", .once "second" ["first"] (.complete none))],
      ⟨[("first", []), ("second", ["first"])]⟩⟩
  poll := poll

theorem Plan.ofSteps_pair (status : Status) (poll : PollPolicy) :
    StepGraph.ofSteps (Step.pair status) = .ok (Plan.pair status poll).graph := by
  cbv

theorem Plan.build_pair (status : Status) :
    Plan.build "run" "" (Step.pair status) none false = .ok (Plan.pair status .standard) := by
  rw [Plan.build, Plan.ofSteps_pair status .standard]
  rfl

theorem Plan.mem_pair_of_get? {status : Status} {poll : PollPolicy} {name : String}
    {step : Step Unit} (h : (Plan.pair status poll).graph.get? name = some step) :
    step ∈ Step.pair status := by
  rw [StepGraph.get?, Plan.pair, Table.get?_ofList_eq_some_iff (by simp)] at h
  rw [Step.pair, List.mem_cons, List.mem_singleton]
  rw [List.mem_cons, List.mem_singleton, Prod.mk.injEq, Prod.mk.injEq] at h
  exact h.imp And.right And.right

theorem Plan.path_pair (status : Status) (poll : PollPolicy) :
    (Plan.pair status poll).graph.dag.Path "second" "first" :=
  .edge (show "first" ∈ ["first"] from List.mem_singleton_self _)

end Rollout

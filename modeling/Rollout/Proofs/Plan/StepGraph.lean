import Rollout.Plan.StepGraph
import Rollout.Proofs.Dag.Entries
import Rollout.Proofs.Data.Table

/-!
# Every node has its step

Graphs of steps bind steps and nodes one to one, and they depend on each other as the steps require.
A graph of steps is made like a graph of entries, one entry for each step with what it requires. The
operations work on the steps and on the graph side by side, so whatever is known of graphs of
entries is known of graphs of steps.

* `StepGraph.entriesOf`: the entries of some steps.
* `StepGraph.foldlM_eq_ok_iff`: a row of operations, told for the steps and for the graph.
* `StepGraph.ofSteps_eq_ok_iff`: the graph of some steps is that of their entries.
* `StepGraph.nodes_ofSteps`, `StepGraph.edge_ofSteps_iff`, `StepGraph.get?_ofSteps_eq_some_iff`: its
  nodes and edges, and the step at each node.
* `StepGraph.Sound`: the graph is well-formed and its nodes are the names of its steps.
* `StepGraph.Built.sound`: so it is whichever operations are used.
* `StepGraph.restrict_eq_ok`: a graph that was narrowed is as before around the nodes it kept.
-/

namespace Rollout

namespace StepGraph

variable {μ : Type}

/-! ## Steps and graph side by side -/

theorem addStep_eq_ok_iff {g h : StepGraph μ} {step : Step μ} :
    g.addStep step = .ok h ↔
      ∃ d, g.dag.addNode step.name = .ok d ∧ h = ⟨g.steps.insert step.name step, d⟩ := by
  unfold addStep
  cases g.dag.addNode step.name <;> simp [eq_comm]

theorem connect_eq_ok_iff {g h : StepGraph μ} {step needed : String} :
    g.connect step needed = .ok h ↔
      ∃ d, g.dag.addEdge step needed = .ok d ∧ h = ⟨g.steps, d⟩ := by
  unfold connect
  cases g.dag.addEdge step needed <;> simp [eq_comm]

/-- If each operation works on the steps and on the graph side by side, so does a row of them. -/
theorem foldlM_eq_ok_iff {α ε : Type} {f : StepGraph μ → α → Except Error (StepGraph μ)}
    (put : Table (Step μ) → α → Table (Step μ)) (move : Dag String → α → Except ε (Dag String))
    (hf : ∀ (g : StepGraph μ) a h,
      f g a = .ok h ↔ ∃ d, move g.dag a = .ok d ∧ h = ⟨put g.steps a, d⟩)
    (l : List α) (g h : StepGraph μ) :
    l.foldlM f g = .ok h ↔ ∃ d, l.foldlM move g.dag = .ok d ∧ h = ⟨l.foldl put g.steps, d⟩ := by
  induction l generalizing g with
  | nil =>
    simp only [List.foldlM_nil, List.foldl_nil]
    constructor
    · intro hg
      exact ⟨g.dag, rfl, (Except.ok.inj hg).symm⟩
    · rintro ⟨d, hd, rfl⟩
      cases hd
      rfl
  | cons a l ih =>
    simp only [List.foldlM_cons, List.foldl_cons, Except.bind_eq_ok_iff, hf]
    constructor
    · rintro ⟨next, ⟨d, hd, rfl⟩, hrest⟩
      obtain ⟨e, he, rfl⟩ := (ih _).1 hrest
      exact ⟨e, ⟨d, hd, he⟩, rfl⟩
    · rintro ⟨e, ⟨d, hd, he⟩, rfl⟩
      exact ⟨_, ⟨d, hd, rfl⟩, (ih _).2 ⟨e, he, rfl⟩⟩

theorem connectAll_eq_ok_iff {g h : StepGraph μ} {step : Step μ} :
    g.connectAll step = .ok h ↔
      ∃ d, g.dag.addEdges (step.requires.map (step.name, ·)) = .ok d ∧ h = ⟨g.steps, d⟩ := by
  unfold connectAll Dag.addEdges
  rw [foldlM_eq_ok_iff (fun table _ => table) (fun d needed => d.addEdge step.name needed)
    fun g needed h => connect_eq_ok_iff, List.foldl_fixed, List.foldlM_map]

/-! ## The graph of some steps -/

/-- An entry for each step, with what it requires. -/
def entriesOf (steps : List (Step μ)) : List (String × List String) :=
  steps.map fun step => (step.name, step.requires)

theorem names_entriesOf (steps : List (Step μ)) :
    (entriesOf steps).map (·.1) = steps.map (·.name) := by
  unfold entriesOf
  rw [List.map_map]
  rfl

/-- The step of one name requires the other. -/
def Requires (steps : List (Step μ)) (a b : String) : Prop :=
  ∃ step ∈ steps, step.name = a ∧ b ∈ step.requires

theorem declares_entriesOf_iff {steps : List (Step μ)} {a b : String} :
    Dag.Declares (entriesOf steps) a b ↔ Requires steps a b := by
  unfold Dag.Declares Requires entriesOf
  simp

/-- Edges may be added step by step. -/
theorem foldlM_addEdges (steps : List (Step μ)) (d : Dag String) :
    steps.foldlM (fun d step => d.addEdges (step.requires.map (step.name, ·))) d =
      d.addEdges (Dag.edges ⟨entriesOf steps⟩) := by
  unfold Dag.edges entriesOf
  induction steps generalizing d with
  | nil => rfl
  | cons step steps ih =>
    rw [List.map_cons, List.flatMap_cons, Dag.addEdges, List.foldlM_append, List.foldlM_cons]
    exact congrArg _ (funext ih)

/-- A graph can be made of steps whose entries are admissible. It is the graph of the entries, with
the steps at its nodes. -/
theorem ofSteps_eq_ok_iff {steps : List (Step μ)} {g : StepGraph μ} :
    ofSteps steps = .ok g ↔ Dag.Admissible (entriesOf steps) ∧
      g = ⟨.ofList (steps.map fun step => (step.name, step)), .ofEntries (entriesOf steps)⟩ := by
  have hadd := foldlM_eq_ok_iff (fun table step => table.insert step.name step)
    (fun d (step : Step μ) => d.addNode step.name) (fun g step h => addStep_eq_ok_iff) steps empty
  have hconnect := foldlM_eq_ok_iff (fun table _ => table)
    (fun d (step : Step μ) => d.addEdges (step.requires.map (step.name, ·)))
    (fun g step h => connectAll_eq_ok_iff) steps
  have hside : ofSteps steps = .ok g ↔ ∃ d, Dag.ofDependencies (entriesOf steps) = .ok d ∧
      g = ⟨.ofList (steps.map fun step => (step.name, step)), d⟩ := by
    unfold ofSteps Dag.ofDependencies Table.ofList
    simp only [Except.bind_eq_ok_iff, hadd, hconnect, List.foldl_fixed, foldlM_addEdges,
      names_entriesOf, Dag.addNodes, List.foldlM_map, List.foldl_map]
    constructor
    · rintro ⟨start, ⟨d, hd, rfl⟩, e, he, rfl⟩
      exact ⟨e, ⟨d, hd, he⟩, rfl⟩
    · rintro ⟨e, ⟨d, hd, he⟩, rfl⟩
      exact ⟨_, ⟨d, hd, rfl⟩, e, he, rfl⟩
  rw [hside]
  simp only [Dag.ofDependencies_eq_ok_iff, and_assoc, exists_and_left, exists_eq_left]

section OfSteps

variable {steps : List (Step μ)} {g : StepGraph μ} (ok : ofSteps steps = .ok g)

include ok

/-- No two of some steps that are in a graph have the same name. -/
theorem nodup_of_ofSteps : (steps.map (·.name)).Nodup := by
  rw [← names_entriesOf]
  exact (ofSteps_eq_ok_iff.1 ok).1.nodup

/-- The nodes of a graph of steps are in the order of the steps. -/
theorem nodes_ofSteps : g.dag.nodes = steps.map (·.name) := by
  obtain ⟨-, rfl⟩ := ofSteps_eq_ok_iff.1 ok
  rw [Dag.nodes_ofEntries, names_entriesOf]

/-- The steps of a graph are the ones it was made of, each under its name. -/
theorem get?_ofSteps_eq_some_iff {n : String} {step : Step μ} :
    g.get? n = some step ↔ step ∈ steps ∧ step.name = n := by
  have hnodup := nodup_of_ofSteps ok
  obtain ⟨-, rfl⟩ := ofSteps_eq_ok_iff.1 ok
  have hkeys : ((steps.map fun step => (step.name, step)).map (·.1)).Nodup := by
    rwa [List.map_map]
  unfold get?
  rw [Table.get?_ofList_eq_some_iff hkeys]
  simp

/-- The graph of some steps has an edge wherever one of them requires another. -/
theorem edge_ofSteps_iff {a b : String} : g.dag.Edge a b ↔ Requires steps a b := by
  obtain ⟨hadm, rfl⟩ := ofSteps_eq_ok_iff.1 ok
  rw [Dag.edge_ofEntries_iff hadm.nodup]
  exact declares_entriesOf_iff

end OfSteps

/-! ## Every node has its step -/

/-- There is a step to every node, under its own name, and there are no others. -/
structure Sound (g : StepGraph μ) : Prop where
  /-- The graph is one that operations leave. -/
  wellFormed : g.dag.WellFormed
  /-- The nodes are the names to which there is a step. -/
  mem_nodes_iff : ∀ n, n ∈ g.dag.nodes ↔ ∃ step, g.get? n = some step
  /-- A step is found by its name. -/
  named : ∀ n step, g.get? n = some step → step.name = n

theorem sound_empty : (empty : StepGraph μ).Sound where
  wellFormed := Dag.wellFormed_empty
  mem_nodes_iff n := by
    show n ∈ [] ↔ ∃ step, (none : Option (Step μ)) = some step
    simp
  named n step h := nomatch h

theorem Sound.ofSteps {steps : List (Step μ)} {g : StepGraph μ} (ok : ofSteps steps = .ok g) :
    g.Sound where
  wellFormed := by
    obtain ⟨hadm, rfl⟩ := ofSteps_eq_ok_iff.1 ok
    exact Dag.wellFormed_ofDependencies (Dag.ofDependencies_eq_ok_iff.2 ⟨hadm, rfl⟩)
  mem_nodes_iff n := by
    simp only [nodes_ofSteps ok, get?_ofSteps_eq_some_iff ok, List.mem_map]
  named n step h := ((get?_ofSteps_eq_some_iff ok).1 h).2

/-- Among the names of nodes none is without a step, so all of them are names of steps. -/
theorem Sound.names_stepsOf {g : StepGraph μ} (hg : g.Sound) {names : List String}
    (hnames : ∀ n ∈ names, n ∈ g.dag.nodes) : (g.stepsOf names).map (·.name) = names := by
  induction names with
  | nil => rfl
  | cons n names ih =>
    obtain ⟨step, hs⟩ := (hg.mem_nodes_iff n).1 (hnames n List.mem_cons_self)
    have hrest := ih fun m hm => hnames m (List.mem_cons_of_mem _ hm)
    rw [stepsOf] at hrest ⊢
    rw [List.filterMap_cons_some hs, List.map_cons, hrest, hg.named n step hs]

/-! ## New steps -/

theorem addStep_eq_ok {g h : StepGraph μ} {step : Step μ} (ok : g.addStep step = .ok h) :
    step.name ∉ g.dag.nodes ∧
      h = ⟨g.steps.insert step.name step, ⟨g.dag.entries ++ [(step.name, [])]⟩⟩ := by
  obtain ⟨d, hd, rfl⟩ := addStep_eq_ok_iff.1 ok
  rw [Dag.addNode] at hd
  split at hd
  · cases hd
  · next hn =>
    cases hd
    exact ⟨hn, rfl⟩

theorem Sound.snoc {g : StepGraph μ} (hg : g.Sound) {step : Step μ}
    (hn : step.name ∉ g.dag.nodes) :
    Sound ⟨g.steps.insert step.name step, ⟨g.dag.entries ++ [(step.name, [])]⟩⟩ where
  wellFormed := hg.wellFormed.snoc hn
  mem_nodes_iff n := by
    rw [Dag.nodes_snoc, List.mem_append, List.mem_singleton, get?, Table.get?_insert]
    by_cases h : n = step.name
    · simp only [h, or_true, if_true, Option.some.injEq, exists_eq']
    · simp only [h, or_false, if_false]
      exact hg.mem_nodes_iff n
  named n s hs := by
    rw [get?, Table.get?_insert] at hs
    by_cases h : n = step.name
    · rw [if_pos h] at hs
      cases hs
      exact h.symm
    · rw [if_neg h] at hs
      exact hg.named n s hs

theorem Sound.addStep {g h : StepGraph μ} (hg : g.Sound) {step : Step μ}
    (ok : g.addStep step = .ok h) : h.Sound := by
  obtain ⟨hn, rfl⟩ := addStep_eq_ok ok
  exact hg.snoc hn

theorem Sound.ensureStep {g : StepGraph μ} (hg : g.Sound) (step : Step μ) :
    (g.ensureStep step).Sound := by
  rw [StepGraph.ensureStep]
  split
  · exact hg
  · next hc =>
    have hn : step.name ∉ g.dag.nodes := fun hn =>
      hc (Table.contains_iff.2 ((hg.mem_nodes_iff _).1 hn))
    rw [Dag.ensureNode, if_neg hn]
    exact hg.snoc hn

/-! ## Connections -/

theorem Sound.connect {g h : StepGraph μ} (hg : g.Sound) {step needed : String}
    (ok : g.connect step needed = .ok h) : h.Sound := by
  obtain ⟨dag, hdag, rfl⟩ := connect_eq_ok_iff.1 ok
  exact
    { wellFormed := hg.wellFormed.addEdge hdag
      mem_nodes_iff := fun n => by
        rw [Dag.nodes_addEdge hdag]
        exact hg.mem_nodes_iff n
      named := hg.named }

/-! ## Other graphs of the same steps -/

theorem Sound.transpose {g : StepGraph μ} (hg : g.Sound) : g.transpose.Sound where
  wellFormed := hg.wellFormed.transpose
  mem_nodes_iff n := by
    rw [StepGraph.transpose, Dag.nodes_transpose hg.wellFormed.simple]
    exact hg.mem_nodes_iff n
  named := hg.named

/-- A graph that was narrowed keeps each of its nodes with its step and all it depends on. -/
theorem restrict_eq_ok {g h : StepGraph μ} {names : List String} (ok : g.restrict names = .ok h) :
    ∃ kept, g.dag.Keeps kept ∧ g.dag.closure names = .ok kept ∧ h.dag = g.dag.keep kept ∧
      h.steps = Table.ofList (h.dag.nodes.filterMap fun n => (g.get? n).map (n, ·)) := by
  rw [restrict] at ok
  cases hdag : g.dag.restrict names with
  | error refusal =>
    simp only [hdag] at ok
    cases ok
  | ok dag =>
    simp only [hdag] at ok
    cases ok
    obtain ⟨kept, hkept, rfl⟩ := Dag.restrict_eq_ok hdag
    exact ⟨kept, Dag.keeps_of_closure hkept, hkept, rfl, rfl⟩

theorem get?_restrict_eq_some_iff {g h : StepGraph μ} (hnodup : h.dag.nodes.Nodup)
    (hsteps : h.steps = Table.ofList (h.dag.nodes.filterMap fun n => (g.get? n).map (n, ·)))
    {n : String} {step : Step μ} :
    h.get? n = some step ↔ n ∈ h.dag.nodes ∧ g.get? n = some step := by
  rw [get?, hsteps]
  exact Table.get?_ofList_filterMap_eq_some_iff hnodup

theorem Sound.restrict {g h : StepGraph μ} (hg : g.Sound) {names : List String}
    (ok : g.restrict names = .ok h) : h.Sound := by
  obtain ⟨kept, hk, -, hdag, hsteps⟩ := restrict_eq_ok ok
  have hwf : h.dag.WellFormed := by
    rw [hdag]
    exact hg.wellFormed.keep hk
  have hget : ∀ n step, h.get? n = some step ↔ n ∈ h.dag.nodes ∧ g.get? n = some step :=
    fun _ _ => get?_restrict_eq_some_iff hwf.nodup_nodes hsteps
  refine ⟨hwf, fun n => ⟨fun hn => ?_, fun ⟨step, hs⟩ => ((hget n step).1 hs).1⟩, fun n step hs =>
    hg.named n step ((hget n step).1 hs).2⟩
  have hn' := hn
  rw [hdag, Dag.nodes_keep] at hn'
  obtain ⟨step, hs⟩ := (hg.mem_nodes_iff n).1 (List.mem_of_mem_filter hn')
  exact ⟨step, (hget n step).2 ⟨hn, hs⟩⟩

/-- Whichever operations are used and in whatever order, every node has its step. -/
theorem Built.sound {g : StepGraph μ} (h : g.Built) : g.Sound := by
  induction h with
  | empty => exact sound_empty
  | ofSteps built => exact .ofSteps built
  | addStep _ built ih => exact ih.addStep built
  | ensureStep step _ ih => exact ih.ensureStep step
  | connect _ built ih => exact ih.connect built
  | transpose _ ih => exact ih.transpose
  | restrict _ built ih => exact ih.restrict built

end StepGraph

end Rollout

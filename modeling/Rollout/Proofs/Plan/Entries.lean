import Rollout.Proofs.Plan.Build

/-!
# Made and listed

What a graph can be made of, and what it lists once it is made: for graphs of entries, and for
graphs of steps.

* `StepGraph.get?_toDict_eq_some_iff`: what is listed for a node.
* `StepGraph.get?_toDict_ofSteps`: what is listed for a step.
* `StepGraph.made_of_entries`: which entries and which steps a graph can be made of, and what it
  lists then.
-/

namespace Rollout.StepGraph

variable {μ : Type}

theorem exists_ofSteps_iff {steps : List (Step μ)} :
    (∃ g, ofSteps steps = .ok g) ↔ Dag.Admissible (entriesOf steps) := by
  simp only [ofSteps_eq_ok_iff, exists_and_left, exists_eq, and_true]

/-! ## What is listed -/

/-- Each node is listed with its dependencies, in order and each once. -/
theorem get?_toDict_eq_some_iff {g : StepGraph μ} (hg : g.dag.nodes.Nodup) {n : String}
    {l : List String} :
    g.toDict.get? n = some l ↔
      n ∈ g.dag.nodes ∧ l.Pairwise (· < ·) ∧ ∀ m, m ∈ l ↔ g.dag.Edge n m := by
  have hkeys : ∀ (needed : List String) m, m ∈ (Table.ofList (needed.map (·, ()))).keys ↔
      m ∈ needed := by
    intro needed m
    rw [Table.mem_keys_ofList, List.map_map]
    simp
  unfold toDict
  rw [Table.get?_ofList_eq_some_iff ?nodup]
  case nodup =>
    rw [List.map_map]
    exact hg
  simp only [List.mem_map, Prod.mk.injEq, Prod.exists]
  constructor
  · rintro ⟨node, needed, hmem, rfl, rfl⟩
    have hneeded := Dag.dependencies_of_mem_entries hg hmem
    refine ⟨List.mem_map.2 ⟨_, hmem, rfl⟩, Table.pairwise_keys _, fun m => ?_⟩
    rw [hkeys, Dag.Edge, hneeded]
  · rintro ⟨hn, hl, hmem⟩
    obtain ⟨⟨node, needed⟩, hentry, rfl⟩ := List.mem_map.1 hn
    have hneeded := Dag.dependencies_of_mem_entries hg hentry
    refine ⟨node, needed, hentry, rfl, (Table.eq_keys_iff.2 ⟨hl, fun m => ?_⟩).symm⟩
    rw [hkeys, hmem, Dag.Edge, hneeded]

/-- Of each name there is one step at most, so what it requires is what is required under the
name. -/
theorem requires_iff_of_nodup {steps : List (Step μ)} (h : (steps.map (·.name)).Nodup)
    {step : Step μ} (hs : step ∈ steps) {m : String} :
    Requires steps step.name m ↔ m ∈ step.requires := by
  constructor
  · rintro ⟨other, ho, hname, hm⟩
    rwa [List.inj_on_of_nodup_map h ho hs hname] at hm
  · intro hm
    exact ⟨step, hs, rfl, hm⟩

/-- The graph of some steps lists each of them with what it requires. -/
theorem get?_toDict_ofSteps {steps : List (Step μ)} {g : StepGraph μ} (ok : ofSteps steps = .ok g)
    {n : String} {l : List String} :
    g.toDict.get? n = some l ↔
      ∃ step ∈ steps, step.name = n ∧ l.Pairwise (· < ·) ∧ ∀ m, m ∈ l ↔ m ∈ step.requires := by
  have hnodup := nodup_of_ofSteps ok
  rw [get?_toDict_eq_some_iff (Sound.ofSteps ok).wellFormed.nodup_nodes, nodes_ofSteps ok]
  constructor
  · rintro ⟨hn, hl, hmem⟩
    obtain ⟨step, hs, rfl⟩ := List.mem_map.1 hn
    refine ⟨step, hs, rfl, hl, fun m => ?_⟩
    rw [hmem, edge_ofSteps_iff ok, requires_iff_of_nodup hnodup hs]
  · rintro ⟨step, hs, rfl, hl, hmem⟩
    refine ⟨List.mem_map_of_mem hs, hl, fun m => ?_⟩
    rw [hmem, edge_ofSteps_iff ok, requires_iff_of_nodup hnodup hs]

/-- A graph can be made of exactly the entries whose nodes are all different, that name no other
nodes, and that close no cycle. It lists the entries in their order, repetitions left out. Entries
in another order make an equal graph, if they make one, and what any graph lists makes this very
graph again. With steps it is the same, by their names and what they require, and each step is
listed with the set of all that it requires. -/
theorem made_of_entries {α : Type} [DecidableEq α] :
    (∀ entries : List (α × List α),
      (∃ d, Dag.ofDependencies entries = .ok d) ↔ Dag.Admissible entries) ∧
    (∀ (entries : List (α × List α)) (d : Dag α), Dag.ofDependencies entries = .ok d →
      d.toDependencies = entries.map fun e => (e.1, e.2.eraseDups)) ∧
    (∀ entries entries' : List (α × List α), Dag.Rearranged entries entries' →
      ((∃ d, Dag.ofDependencies entries = .ok d) ↔ ∃ d, Dag.ofDependencies entries' = .ok d) ∧
      ∀ d d', Dag.ofDependencies entries = .ok d → Dag.ofDependencies entries' = .ok d' →
        (d == d') = true) ∧
    (∀ d : Dag α, d.Built → Dag.ofDependencies d.toDependencies = .ok d) ∧
    (∀ steps : List (Step μ),
      (∃ g, ofSteps steps = .ok g) ↔ Dag.Admissible (entriesOf steps)) ∧
    ∀ (steps : List (Step μ)) (g : StepGraph μ), ofSteps steps = .ok g → ∀ n l,
      g.toDict.get? n = some l ↔
        ∃ step ∈ steps, step.name = n ∧ l.Pairwise (· < ·) ∧ ∀ m, m ∈ l ↔ m ∈ step.requires := by
  refine ⟨fun entries => Dag.exists_ofDependencies_iff, fun entries d hd => ?_,
    fun entries entries' hturned => ⟨?_, fun d d' => hturned.same⟩,
    fun d hd => hd.wellFormed.ofDependencies_entries, fun steps => exists_ofSteps_iff,
    fun steps g hg n l => get?_toDict_ofSteps hg⟩
  · obtain ⟨-, rfl⟩ := Dag.ofDependencies_eq_ok_iff.1 hd
    rfl
  · rw [Dag.exists_ofDependencies_iff, Dag.exists_ofDependencies_iff]
    exact hturned.admissible_iff

/-- Three entries, the first of which comes before what it depends on and names some of it twice. -/
def tiers : List (String × List String) :=
  [("app", ["net", "db", "net"]), ("net", []), ("db", ["net", "net"])]

/-- The three entries in another order, as steps. -/
def tiersTurned : List (Step Unit) :=
  [.once "db" ["net", "net"] (.complete none), .once "app" ["db", "net", "net"] (.complete none),
    .once "net" [] (.complete none)]

theorem rearranged_tiers : Dag.Rearranged tiers (entriesOf tiersTurned) := by
  refine ⟨[("db", ["net", "net"]), ("app", ["net", "db", "net"]), ("net", [])], by decide, ?_⟩
  refine .cons ⟨rfl, .refl _⟩ (.cons ⟨rfl, ?_⟩ (.cons ⟨rfl, .refl _⟩ .nil))
  decide

/-- The three entries make a graph without the repetitions, which makes itself again. In another
order they make an equal graph, and steps with these entries are listed with what they require in
the order of the names. Two entries that depend on each other make none. -/
theorem made_of_entries_tiers :
    (∃ d d' : Dag String, Dag.ofDependencies tiers = .ok d ∧
      d.toDependencies = [("app", ["net", "db"]), ("net", []), ("db", ["net"])] ∧
      Dag.ofDependencies d.toDependencies = .ok d ∧
      Dag.ofDependencies (entriesOf tiersTurned) = .ok d' ∧ (d == d') = true) ∧
    (∃ g, ofSteps tiersTurned = .ok g ∧ g.toDict.get? "app" = some ["db", "net"]) ∧
    ¬ ∃ d, Dag.ofDependencies [("a", ["b"]), ("b", ["a"])] = .ok d := by
  obtain ⟨hmade, hlisted, hturned, hagain, hsteps, hdict⟩ :=
    @made_of_entries Unit String _
  have hd : Dag.ofDependencies tiers = .ok (Dag.ofEntries tiers) := by
    cbv
  obtain ⟨hboth, hsame⟩ := hturned tiers (entriesOf tiersTurned) rearranged_tiers
  obtain ⟨d', hd'⟩ := hboth.1 ⟨_, hd⟩
  obtain ⟨g, hg⟩ := (hsteps tiersTurned).2 ((hmade _).1 ⟨d', hd'⟩)
  refine ⟨⟨_, d', hd, (hlisted tiers _ hd).trans (by decide), hagain _ (.ofDependencies hd), hd',
    hsame _ d' hd hd'⟩, ⟨g, hg, ?_⟩, ?_⟩
  · apply (hdict tiersTurned g hg "app" ["db", "net"]).2
    refine ⟨.once "app" ["db", "net", "net"] (.complete none), by simp [tiersTurned], rfl,
      by decide, fun m => ?_⟩
    simp [Step.once]
  · intro hloop
    -- Each of the two needs the other, so each needs itself.
    have hab : Dag.Declares [("a", ["b"]), ("b", ["a"])] "a" "b" := ⟨("a", ["b"]), by simp⟩
    have hba : Dag.Declares [("a", ["b"]), ("b", ["a"])] "b" "a" := ⟨("b", ["a"]), by simp⟩
    exact ((hmade _).1 hloop).acyclic "a" (.tail (.single hab) hba)

end Rollout.StepGraph

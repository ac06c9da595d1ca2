import Rollout.Proofs.Dag.Built
import Rollout.Proofs.Dag.Same

/-!
# A graph and the graph turned round

What a query says of a graph, the opposite query says of the graph with every edge turned round,
with its answer in the same order. Turning the edges round twice gives the edges back, but each
node then lists its dependencies in the order in which they were inserted as nodes.

* `dependenciesOf_transpose`, `leaves_transpose`: the queries and their opposites.
* `dependencies_transpose_transpose`: the order that is left after two turns.
* `agrees_transpose_transpose`: nothing else has changed, so a third turn is like the first.
* `Built.transpose_dual`: all this of every graph that can be built.
-/

namespace Rollout.Dag

variable {α : Type} [DecidableEq α]

/-! ## Queries and their opposites -/

theorem dependenciesOf_transpose {d : Dag α} (hd : d.Simple) (n : α) :
    d.transpose.dependenciesOf n = d.dependentsOf n := by
  rw [dependenciesOf, dependentsOf, nodes_transpose hd, dependencies_transpose hd]

/-- A node is independent exactly when it has no dependents. -/
theorem independentNodes_eq {d : Dag α} (hd : d.Simple) :
    d.independentNodes = d.nodes.filter fun n => d.dependents n = [] := by
  refine List.filter_congr fun n _ => decide_eq_decide.2 ?_
  rw [List.eq_nil_iff_forall_not_mem, List.mem_map]
  constructor
  · intro h m hm
    exact h ⟨(m, n), (mem_edges_iff hd.nodup_nodes).2 (mem_dependents_iff.1 hm), rfl⟩
  · rintro h ⟨⟨m, k⟩, hedge, rfl⟩
    exact h m (mem_dependents_iff.2 ((mem_edges_iff hd.nodup_nodes).1 hedge))

theorem leaves_transpose {d : Dag α} (hd : d.Simple) :
    d.transpose.leaves = d.independentNodes := by
  rw [leaves, independentNodes_eq hd, nodes_transpose hd]
  exact List.filter_congr fun n _ => by rw [dependencies_transpose hd]

theorem hasPath_transpose {d : Dag α} (hd : d.Simple) {a b : α} (ha : a ∈ d.nodes)
    (hb : b ∈ d.nodes) : d.transpose.hasPath a b = d.hasPath b a :=
  hasPath_congr (nodes_transpose hd ▸ ha) hb (path_transpose_iff hd)

/-! ## Turning round twice -/

/-- After two turns a node lists its dependencies in insertion order. -/
theorem dependencies_transpose_transpose {d : Dag α} (hd : d.Simple) (n : α) :
    d.transpose.transpose.dependencies n = d.nodes.filter (· ∈ d.dependencies n) := by
  rw [dependencies_transpose hd.transpose, dependents, nodes_transpose hd]
  refine List.filter_congr fun m _ => decide_eq_decide.2 ?_
  rw [dependencies_transpose hd]
  exact mem_dependents_iff

theorem agrees_transpose_transpose {d : Dag α} (hd : d.Simple) :
    d.Agrees d.transpose.transpose where
  nodes := by rw [nodes_transpose hd.transpose, nodes_transpose hd]
  edge _ _ := by rw [edge_transpose_iff hd.transpose, edge_transpose_iff hd]

/-- Turning a graph round turns round its edges and its paths, so direct dependencies become direct
dependents and leaves become independent nodes, in the same order. A second turn gives a graph equal
to the first one, in which each node lists its dependencies in insertion order. A third turn gives
what the first one gave, the order of the lists included. -/
theorem Built.transpose_dual {d : Dag α} (h : d.Built) :
    (∀ a b, d.transpose.Edge a b ↔ d.Edge b a) ∧
    (d.transpose.transpose == d) = true ∧
    (∀ n, d.transpose.transpose.dependencies n = d.nodes.filter (· ∈ d.dependencies n)) ∧
    d.transpose.transpose.transpose.toDependencies = d.transpose.toDependencies ∧
    (∀ n, d.transpose.dependenciesOf n = d.dependentsOf n) ∧
    d.transpose.leaves = d.independentNodes ∧
    (∀ a b, d.transpose.Path a b ↔ d.Path b a) ∧
    ∀ a ∈ d.nodes, ∀ b ∈ d.nodes, d.transpose.hasPath a b = d.hasPath b a := by
  have hd := h.wellFormed.simple
  have hagrees := agrees_transpose_transpose hd
  have htwice := hd.transpose.transpose
  refine ⟨fun _ _ => edge_transpose_iff hd, hagrees.same hd htwice,
    dependencies_transpose_transpose hd, ?_, dependenciesOf_transpose hd, leaves_transpose hd,
    fun _ _ => path_transpose_iff hd, fun a ha b hb => hasPath_transpose hd ha hb⟩
  rw [hagrees.transpose hd htwice]

/-- Two nodes below a third one, which lists them against the order of their insertion. Two turns
put them in order, and the graph counts as the same. -/
theorem transpose_dual_crossed :
    ∃ d : Dag Nat, d.Built ∧ d.toDependencies = [(1, [3, 2]), (2, []), (3, [])] ∧
      (d.transpose.transpose == d) = true ∧ d.transpose.transpose.dependencies 1 = [2, 3] ∧
      d.transpose.leaves = [1] ∧ d.transpose.hasPath 2 1 = d.hasPath 1 2 := by
  have hd : (⟨[(1, [3, 2]), (2, []), (3, [])]⟩ : Dag Nat).Built :=
    built_of_ofDependencies [(1, [3, 2]), (2, []), (3, [])] (by decide +kernel)
  obtain ⟨-, hsame, horder, -, -, hleaves, -, hpath⟩ := hd.transpose_dual
  exact ⟨_, hd, rfl, hsame, (horder 1).trans (by decide), hleaves.trans (by decide),
    hpath 2 (by decide) 1 (by decide)⟩

end Rollout.Dag

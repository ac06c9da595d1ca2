import Rollout.Proofs.Dag.Duality
import Rollout.Proofs.Dag.Indexed

/-!
# Where graphs begin and end

Going on from dependency to dependency has an end in a graph without cycles, and so has going on
from dependent to dependent. So below every node there is a leaf and above it an independent node,
and the check of a graph finds fault with the empty graph only.

* `WellFormed.exists_leaf` and `WellFormed.exists_independent`: the ends below and above a node.
* `Built.validate_iff_nonempty`: what the check says of graphs that can be built.
-/

namespace Rollout.Dag

variable {α : Type} [DecidableEq α]

theorem mem_leaves_iff {d : Dag α} {n : α} : n ∈ d.leaves ↔ n ∈ d.nodes ∧ ∀ m, ¬ d.Edge n m := by
  rw [leaves, List.mem_filter, decide_eq_true_eq, List.eq_nil_iff_forall_not_mem]
  rfl

/-- Every node is a leaf or depends on one. -/
theorem WellFormed.exists_leaf {d : Dag α} (hd : d.WellFormed) {n : α} (hn : n ∈ d.nodes) :
    ∃ m ∈ d.leaves, n = m ∨ d.Path n m := by
  induction n using hd.induction_up with
  | step n ih =>
    by_cases hleaf : ∃ m, d.Edge n m
    · obtain ⟨m, first⟩ := hleaf
      obtain ⟨k, hk, rfl | rest⟩ := ih m first (hd.closed n m first)
      · exact ⟨m, hk, .inr (.edge first)⟩
      · exact ⟨k, hk, .inr (.cons first rest)⟩
    · exact ⟨n, mem_leaves_iff.2 ⟨hn, not_exists.1 hleaf⟩, .inl rfl⟩

/-- Every node is independent or needed by an independent one. Turned round, this is the same of
leaves. -/
theorem WellFormed.exists_independent {d : Dag α} (hd : d.WellFormed) {n : α} (hn : n ∈ d.nodes) :
    ∃ m ∈ d.independentNodes, n = m ∨ d.Path m n := by
  have hn' : n ∈ d.transpose.nodes := by
    rw [nodes_transpose hd.simple]
    exact hn
  obtain ⟨m, hm, hpath⟩ := hd.transpose.exists_leaf hn'
  rw [leaves_transpose hd.simple] at hm
  exact ⟨m, hm, hpath.imp_right (path_transpose_iff hd.simple).1⟩

/-- Only the empty graph has no independent node. -/
theorem WellFormed.independentNodes_eq_nil_iff {d : Dag α} (hd : d.WellFormed) :
    d.independentNodes = [] ↔ d.nodes = [] := by
  constructor
  · intro hnone
    refine List.eq_nil_iff_forall_not_mem.2 fun n hn => ?_
    obtain ⟨m, hm, -⟩ := hd.exists_independent hn
    rw [hnone] at hm
    exact List.not_mem_nil hm
  · intro hempty
    rw [independentNodes, hempty]
    rfl

theorem WellFormed.validate_eq {d : Dag α} (hd : d.WellFormed) :
    d.validate = if d.nodes = [] then .error .noIndependentNode else .ok () := by
  obtain ⟨order, horder⟩ := hd.exists_sort
  rw [validate, horder]
  simp only [hd.independentNodes_eq_nil_iff]

/-- The check of a graph passes exactly if there is a node. The empty graph is refused for having no
independent node; for having no order no graph is refused, as every graph has one. Every node is
below an independent node, or is one, and above a leaf, or is one. -/
theorem Built.validate_iff_nonempty {d : Dag α} (h : d.Built) :
    (d.validate = .ok () ↔ d.nodes ≠ []) ∧
    (d.nodes = [] → d.validate = .error .noIndependentNode) ∧
    (d.nodes ≠ [] → d.independentNodes ≠ [] ∧ d.leaves ≠ []) ∧
    (∀ n ∈ d.nodes, (∃ m ∈ d.independentNodes, n = m ∨ d.Path m n) ∧
      ∃ m ∈ d.leaves, n = m ∨ d.Path n m) ∧
    (∃ order, d.sort = .ok order) ∧
    (∀ unresolved, d.validate ≠ .error (.unordered unresolved)) ∧
    d.indexed.validate? = some d.validate := by
  have hd := h.wellFormed
  refine ⟨?_, fun hempty => ?_, fun hsome => ⟨?_, ?_⟩,
    fun n hn => ⟨hd.exists_independent hn, hd.exists_leaf hn⟩, hd.exists_sort,
    fun unresolved => ?_, validate?_indexed hd.simple⟩
  · rw [hd.validate_eq]
    split <;> simp [*]
  · rw [hd.validate_eq, if_pos hempty]
  · exact fun hnone => hsome (hd.independentNodes_eq_nil_iff.1 hnone)
  · obtain ⟨n, hn⟩ := List.exists_mem_of_ne_nil _ hsome
    obtain ⟨m, hm, -⟩ := hd.exists_leaf hn
    exact List.ne_nil_of_mem hm
  · rw [hd.validate_eq]
    split <;> exact nofun

/-- The empty graph is refused, and a graph of two rows that end in the same leaf passes. The ends
below and above are those of a node inside one of the rows. -/
theorem validate_iff_nonempty_rows :
    (empty : Dag Nat).validate = .error .noIndependentNode ∧
    ∃ d : Dag Nat, d.Built ∧ d.toDependencies = [(1, [2]), (2, []), (3, [4]), (4, [2])] ∧
      d.validate = .ok () ∧ (∃ m ∈ d.leaves, 4 = m ∨ d.Path 4 m) ∧
      ∃ m ∈ d.independentNodes, 4 = m ∨ d.Path m 4 := by
  have hd : (⟨[(1, [2]), (2, []), (3, [4]), (4, [2])]⟩ : Dag Nat).Built :=
    built_of_ofDependencies [(1, [2]), (2, []), (3, [4]), (4, [2])] (by decide +kernel)
  obtain ⟨-, hempty, -⟩ := (Built.empty : (empty : Dag Nat).Built).validate_iff_nonempty
  obtain ⟨hpasses, -, -, hends, -⟩ := hd.validate_iff_nonempty
  obtain ⟨habove, hbelow⟩ := hends 4 (by decide)
  exact ⟨hempty rfl, _, hd, rfl, hpasses.2 (by decide), hbelow, habove⟩

end Rollout.Dag

import Rollout.Proofs.Dag.Transpose

/-!
# Graphs that differ in order only

Two graphs are equal if they have the same nodes and the same edges, in whatever order. The check
compares lengths and looks for the members of one list in the other; on lists without repetitions
this is the same as comparing members.

* `Simple.same_iff`: equality by nodes and edges.
* `Agrees`: the same nodes in the same order, and the same edges.
* `Agrees.transpose`: turned round, such graphs are the same.
-/

namespace Rollout

variable {α : Type}

/-- Lists without repetitions have the same members as soon as they are of one length and one holds
all members of the other. -/
theorem length_eq_and_subset_iff {l l' : List α} (hl : l.Nodup) (hl' : l'.Nodup) :
    l.length = l'.length ∧ (∀ a ∈ l, a ∈ l') ↔ ∀ a, a ∈ l ↔ a ∈ l' := by
  constructor
  · rintro ⟨hlen, hsub⟩ a
    have hperm : l.Perm l' := (hl.subperm hsub).perm_of_length_le (by omega)
    exact hperm.mem_iff
  · intro h
    have hperm : l.Perm l' := (List.perm_ext_iff_of_nodup hl hl').2 h
    exact ⟨hperm.length_eq, fun a => (h a).1⟩

namespace Dag

variable [DecidableEq α]

/-- What the check compares, in terms of nodes and dependencies. -/
theorem same_eq_true_iff {d : Dag α} (hd : d.nodes.Nodup) (e : Dag α) :
    d.same e = true ↔ d.nodes.length = e.nodes.length ∧
      ∀ n ∈ d.nodes, n ∈ e.nodes ∧ (d.dependencies n).length = (e.dependencies n).length ∧
        ∀ m ∈ d.dependencies n, m ∈ e.dependencies n := by
  rw [same, entries_eq hd]
  simp only [Bool.and_eq_true, beq_iff_eq, List.all_eq_true, List.mem_map, forall_exists_index,
    and_imp, forall_apply_eq_imp_iff₂, List.length_map, length_nodes e, size]
  refine and_congr_right fun _ => forall₂_congr fun n _ => ?_
  cases h : e.entries.lookup n with
  | some deps =>
    have hn : n ∈ e.nodes := List.mem_map.2 ⟨_, mem_of_lookup_eq_some h, rfl⟩
    have hdeps : e.dependencies n = deps := by rw [dependencies, h, Option.getD_some]
    simp [hn, hdeps]
  | none =>
    have hn : n ∉ e.nodes := by
      intro hn
      obtain ⟨deps, hdeps⟩ := exists_lookup_eq_some hn
      rw [h] at hdeps
      cases hdeps
    simp [hn]

/-- Equal are exactly the graphs with the same nodes and the same edges. -/
theorem Simple.same_iff {d e : Dag α} (hd : d.Simple) (he : e.Simple) :
    (d == e) = true ↔ (∀ n, n ∈ d.nodes ↔ n ∈ e.nodes) ∧ ∀ a b, d.Edge a b ↔ e.Edge a b := by
  have hdeps : ∀ n, ((d.dependencies n).length = (e.dependencies n).length ∧
      ∀ m ∈ d.dependencies n, m ∈ e.dependencies n) ↔ ∀ m, d.Edge n m ↔ e.Edge n m :=
    fun n => length_eq_and_subset_iff (hd.nodup_dependencies n) (he.nodup_dependencies n)
  have hnodes := length_eq_and_subset_iff hd.nodup_nodes he.nodup_nodes
  show d.same e = true ↔ _
  rw [same_eq_true_iff hd.nodup_nodes]
  simp only [hdeps]
  constructor
  · rintro ⟨hlen, hall⟩
    have hmem := hnodes.1 ⟨hlen, fun n hn => (hall n hn).1⟩
    refine ⟨hmem, fun a b => ?_⟩
    by_cases ha : a ∈ d.nodes
    · exact (hall a ha).2 b
    · have ha' : a ∉ e.nodes := fun h => ha ((hmem a).2 h)
      exact ⟨fun h => absurd h.mem_nodes ha, fun h => absurd h.mem_nodes ha'⟩
  · rintro ⟨hmem, hedge⟩
    exact ⟨(hnodes.2 hmem).1, fun n hn => ⟨(hmem n).1 hn, hedge n⟩⟩

/-- Two graphs with the same nodes in the same order and the same edges. Each may list the edges of
a node in an order of its own. -/
structure Agrees (d e : Dag α) : Prop where
  nodes : e.nodes = d.nodes
  edge : ∀ a b, e.Edge a b ↔ d.Edge a b

theorem Agrees.same {d e : Dag α} (h : d.Agrees e) (hd : d.Simple) (he : e.Simple) :
    (e == d) = true :=
  (he.same_iff hd).2 ⟨fun _ => by rw [h.nodes], h.edge⟩

theorem Agrees.dependents {d e : Dag α} (h : d.Agrees e) (n : α) :
    e.dependents n = d.dependents n := by
  rw [Dag.dependents, Dag.dependents, h.nodes]
  exact List.filter_congr fun m _ => decide_eq_decide.2 (h.edge m n)

/-- Turned round, the edges of a node are in the order of the nodes. -/
theorem Agrees.transpose {d e : Dag α} (h : d.Agrees e) (hd : d.Simple) (he : e.Simple) :
    e.transpose = d.transpose := by
  refine ext_views hd.transpose.nodup_nodes ?_ fun n _ => ?_
  · rw [nodes_transpose he, nodes_transpose hd, h.nodes]
  · rw [dependencies_transpose he, dependencies_transpose hd, h.dependents]

end Dag

end Rollout

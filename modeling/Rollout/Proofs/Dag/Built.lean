import Rollout.Dag.Operations
import Rollout.Proofs.Dag.Order
import Rollout.Proofs.Dag.Restrict

/-!
# Every graph that can be built is well-formed

Each operation takes a well-formed graph to a well-formed one. The edits that take away and the
graphs that are cut down keep some of the nodes and of the edges; adding an edge is the one
operation that could close a cycle, and the sort that comes before it rules this out.

* `WellFormed.subgraph`: fewer nodes, fewer edges.
* `WellFormed.addEdge`: a new edge.
* `Built.wellFormed`: any operations in any order.
-/

namespace Rollout.Dag

variable {α : Type} [DecidableEq α]

theorem wellFormed_empty : (empty : Dag α).WellFormed where
  nodup_nodes := .nil
  nodup_dependencies _ := .nil
  closed _ _ h := absurd h List.not_mem_nil
  acyclic _ h := absurd h.mem_nodes List.not_mem_nil

/-- A graph with some of the nodes and some of the edges of a well-formed one. -/
theorem WellFormed.subgraph {d e : Dag α} (hd : d.WellFormed) (hnodes : e.nodes.Sublist d.nodes)
    (hdeps : ∀ n, (e.dependencies n).Sublist (d.dependencies n))
    (hclosed : ∀ n m, e.Edge n m → m ∈ e.nodes) : e.WellFormed where
  nodup_nodes := hd.nodup_nodes.sublist hnodes
  nodup_dependencies n := (hd.nodup_dependencies n).sublist (hdeps n)
  closed := hclosed
  acyclic n h := hd.acyclic n (h.mono fun x _ hxy => (hdeps x).subset hxy)

theorem WellFormed.snoc {d : Dag α} (hd : d.WellFormed) {n : α} (hn : n ∉ d.nodes) :
    WellFormed ⟨d.entries ++ [(n, [])]⟩ where
  nodup_nodes := by
    rw [nodes_snoc]
    exact hd.nodup_nodes.append (List.nodup_singleton n) (by simpa using hn)
  nodup_dependencies m := by
    rw [dependencies_snoc]
    exact hd.nodup_dependencies m
  closed a b h := by
    rw [Edge, dependencies_snoc] at h
    rw [nodes_snoc]
    exact List.mem_append_left _ (hd.closed a b h)
  acyclic m h := hd.acyclic m (h.mono fun x y hxy => by
    rwa [Edge, dependencies_snoc] at hxy)

theorem WellFormed.addNode {d e : Dag α} (hd : d.WellFormed) {n : α} (h : d.addNode n = .ok e) :
    e.WellFormed := by
  rw [Dag.addNode] at h
  split at h
  · cases h
  · next hn =>
    cases h
    exact hd.snoc hn

theorem WellFormed.ensureNode {d : Dag α} (hd : d.WellFormed) (n : α) :
    (d.ensureNode n).WellFormed := by
  rw [Dag.ensureNode]
  split
  · exact hd
  · next hn => exact hd.snoc hn

theorem WellFormed.dropNode {d : Dag α} (hd : d.WellFormed) (n : α) :
    (d.dropNode n).WellFormed := by
  refine hd.subgraph (by simp) (fun m => ?_) fun a b h => ?_
  · rw [dependencies_dropNode]
    split
    · exact List.nil_sublist _
    · exact List.filter_sublist
  · rw [Edge, dependencies_dropNode] at h
    split at h
    · exact absurd h List.not_mem_nil
    · obtain ⟨h, hb⟩ := List.mem_filter.1 h
      rw [nodes_dropNode]
      exact List.mem_filter.2 ⟨hd.closed a b h, hb⟩

theorem WellFormed.removeNode {d e : Dag α} (hd : d.WellFormed) {n : α}
    (h : d.removeNode n = .ok e) : e.WellFormed := by
  rw [Dag.removeNode] at h
  split at h
  · cases h
    exact hd.dropNode n
  · cases h

theorem WellFormed.discardNode {d : Dag α} (hd : d.WellFormed) (n : α) :
    (d.discardNode n).WellFormed := by
  rw [Dag.discardNode]
  split
  · exact hd.dropNode n
  · exact hd

theorem WellFormed.removeEdge {d e : Dag α} (hd : d.WellFormed) {source target : α}
    (h : d.removeEdge source target = .ok e) : e.WellFormed := by
  rw [Dag.removeEdge] at h
  split at h
  · cases h
    have hsub : ∀ n, ((d.unlink source target).dependencies n).Sublist (d.dependencies n) := by
      intro n
      rw [dependencies_unlink]
      split
      · exact List.filter_sublist
      · exact List.Sublist.refl _
    refine hd.subgraph (by simp) hsub fun a b h => ?_
    rw [nodes_unlink]
    exact hd.closed a b ((hsub a).subset h)
  · cases h

/-! ## A new edge -/

/-- An edge between two nodes, if it is new, leaves no edge twice. A cycle is still possible. -/
theorem WellFormed.simple_link {d : Dag α} (hd : d.WellFormed) {source target : α}
    (hs : source ∈ d.nodes) (ht : target ∈ d.nodes) (hnew : ¬ d.Edge source target) :
    (d.link source target).Simple where
  nodup_nodes := by
    rw [nodes_link]
    exact hd.nodup_nodes
  nodup_dependencies n := by
    rw [dependencies_link hs]
    split
    · next h =>
      subst h
      have hnot : target ∉ d.dependencies n := hnew
      exact (hd.nodup_dependencies n).append (List.nodup_singleton target) (by simpa using hnot)
    · exact hd.nodup_dependencies n
  closed a b h := by
    rw [nodes_link]
    rcases (edge_link_iff hs).1 h with h | ⟨-, rfl⟩
    · exact hd.closed a b h
    · exact ht

/-- When an edge can be added, it leads from node to node, and either it was there or the graph with
it can be sorted. -/
theorem addEdge_eq_ok {d e : Dag α} {source target : α} (h : d.addEdge source target = .ok e) :
    source ∈ d.nodes ∧ target ∈ d.nodes ∧
      (d.Edge source target ∧ e = d ∨
        ¬ d.Edge source target ∧ e = d.link source target ∧ ∃ l, e.sort = .ok l) := by
  rw [Dag.addEdge] at h
  by_cases hs : source ∈ d.nodes
  · by_cases ht : target ∈ d.nodes
    · by_cases hst : target ∈ d.dependencies source
      · rw [if_neg (not_not.2 hs), if_neg (not_not.2 ht), if_pos hst] at h
        cases h
        exact ⟨hs, ht, .inl ⟨hst, rfl⟩⟩
      · rw [if_neg (not_not.2 hs), if_neg (not_not.2 ht), if_neg hst] at h
        cases hsort : (d.link source target).sort with
        | error refusal =>
          simp only [hsort] at h
          cases h
        | ok l =>
          simp only [hsort] at h
          cases h
          exact ⟨hs, ht, .inr ⟨hst, rfl, l, hsort⟩⟩
    · rw [if_neg (not_not.2 hs), if_pos ht] at h
      cases h
  · rw [if_pos hs] at h
    cases h

theorem WellFormed.addEdge {d e : Dag α} (hd : d.WellFormed) {source target : α}
    (h : d.addEdge source target = .ok e) : e.WellFormed := by
  obtain ⟨hs, ht, ⟨-, rfl⟩ | ⟨hnew, rfl, l, hsort⟩⟩ := addEdge_eq_ok h
  · exact hd
  · have hsimple := hd.simple_link hs ht hnew
    exact hsimple.wellFormed (hsimple.acyclic_of_sort hsort)

theorem wellFormed_ofDependencies {entries : List (α × List α)} {d : Dag α}
    (h : ofDependencies entries = .ok d) : d.WellFormed := by
  rw [ofDependencies, Except.bind_eq_ok_iff] at h
  obtain ⟨nodes, hnodes, h⟩ := h
  have hstart : nodes.WellFormed :=
    Except.foldlM_ok_induction hnodes wellFormed_empty fun _ _ _ _ hx hy => hx.addNode hy
  exact Except.foldlM_ok_induction h hstart fun _ _ _ _ hx hy => hx.addEdge hy

/-! ## Graphs that are cut down -/

theorem WellFormed.reduce {d : Dag α} (hd : d.WellFormed) : d.reduce.WellFormed := by
  have hsub : ∀ n, (d.reduce.dependencies n).Sublist (d.dependencies n) := by
    intro n
    rw [dependencies_reduce]
    exact List.filter_sublist
  refine hd.subgraph (by simp) hsub fun a b h => ?_
  rw [nodes_reduce]
  exact hd.closed a b ((hsub a).subset h)

theorem WellFormed.keep {d : Dag α} (hd : d.WellFormed) {kept : List α} (hk : d.Keeps kept) :
    (d.keep kept).WellFormed := by
  refine hd.subgraph (by simp) (fun n => ?_) fun a b h => ?_
  · rw [dependencies_keep]
    split
    · exact List.filter_sublist
    · exact List.nil_sublist _
  · obtain ⟨ha, h⟩ := (edge_keep_iff hk).1 h
    exact mem_nodes_keep_iff.2 ⟨hd.closed a b h, hk a ha b h⟩

theorem WellFormed.restrict {d e : Dag α} (hd : d.WellFormed) {ns : List α}
    (h : d.restrict ns = .ok e) : e.WellFormed := by
  obtain ⟨kept, hkept, rfl⟩ := restrict_eq_ok h
  exact hd.keep (keeps_of_closure hkept)

/-- Whichever operations are used and in whatever order, the graph is well-formed. -/
theorem Built.wellFormed {d : Dag α} (h : d.Built) : d.WellFormed := by
  induction h with
  | empty => exact wellFormed_empty
  | ofDependencies built => exact wellFormed_ofDependencies built
  | addNode _ built ih => exact ih.addNode built
  | ensureNode n _ ih => exact ih.ensureNode n
  | removeNode _ built ih => exact ih.removeNode built
  | discardNode n _ ih => exact ih.discardNode n
  | addEdge _ built ih => exact ih.addEdge built
  | removeEdge _ built ih => exact ih.removeEdge built
  | transpose _ ih => exact ih.transpose
  | restrict _ built ih => exact ih.restrict built
  | reduce _ ih => exact ih.reduce

/-- What a construction gives can be built. -/
theorem built_of_ofDependencies {d : Dag α} (entries : List (α × List α))
    (h : (ofDependencies entries).toOption.map (·.entries) = some d.entries) : d.Built := by
  cases hbuilt : ofDependencies entries with
  | error refusal =>
    rw [hbuilt] at h
    cases h
  | ok e =>
    rw [hbuilt] at h
    have he : e = d := congrArg Dag.mk (Option.some.inj h)
    exact he ▸ .ofDependencies hbuilt

end Rollout.Dag

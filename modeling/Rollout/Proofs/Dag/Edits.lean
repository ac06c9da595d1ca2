import Rollout.Dag.Basic
import Rollout.Dag.Operations
import Rollout.Proofs.Data.Lookup

/-!
# Nodes and dependencies after each operation

The two views of a graph, `nodes` and `dependencies`, after each of the operations. Later proofs
look at graphs through these two views only.

* `entries_eq`, `ext_views`: a graph is told by its two views.
* `dependencies_dropNode`, `dependencies_link`, `dependencies_unlink`: the edits.
* `dependencies_keep`, `dependencies_reduce`: the graphs that are cut down.
* `mem_edges_iff`: the list of edges and the relation `Edge` say the same.
-/

namespace Rollout.Dag

variable {α : Type}

theorem length_nodes (d : Dag α) : d.nodes.length = d.size := List.length_map _

@[simp] theorem nodes_empty : (empty : Dag α).nodes = [] := rfl

theorem nodes_snoc (d : Dag α) (n : α) : nodes ⟨d.entries ++ [(n, [])]⟩ = d.nodes ++ [n] := by
  simp [nodes]

@[simp] theorem nodes_bare (d : Dag α) : d.bare.nodes = d.nodes := by
  simp only [bare, nodes, List.map_map]
  rfl

variable [DecidableEq α]

theorem mem_entries_dependencies {d : Dag α} {n : α} (hn : n ∈ d.nodes) :
    (n, d.dependencies n) ∈ d.entries := by
  obtain ⟨deps, h⟩ := exists_lookup_eq_some hn
  rw [dependencies, h]
  exact mem_of_lookup_eq_some h

/-- Only nodes have dependencies. -/
theorem Edge.mem_nodes {d : Dag α} {a b : α} (h : d.Edge a b) : a ∈ d.nodes := by
  by_contra ha
  rw [Edge, dependencies_of_not_mem ha] at h
  exact List.not_mem_nil h

theorem dependencies_of_mem_entries {d : Dag α} (hd : d.nodes.Nodup) {e : α × List α}
    (he : e ∈ d.entries) : d.dependencies e.1 = e.2 := by
  have h : d.entries.lookup e.1 = some e.2 := (lookup_eq_some_iff_mem hd).2 he
  rw [dependencies, h, Option.getD_some]

/-- The bindings of a graph whose nodes are distinct are told by its two views. -/
theorem entries_eq {d : Dag α} (hd : d.nodes.Nodup) :
    d.entries = d.nodes.map fun n => (n, d.dependencies n) := by
  rw [nodes, List.map_map]
  refine (List.map_id' d.entries).symm.trans (List.map_congr_left fun e he => ?_)
  rw [Function.comp_apply, dependencies_of_mem_entries hd he]

theorem edges_eq {d : Dag α} (hd : d.nodes.Nodup) :
    d.edges = d.nodes.flatMap fun n => (d.dependencies n).map (n, ·) := by
  rw [edges, entries_eq hd, List.flatMap_map]

/-- Graphs with the same two views are the same. -/
theorem ext_views {d e : Dag α} (hd : d.nodes.Nodup) (hnodes : e.nodes = d.nodes)
    (hdeps : ∀ n ∈ d.nodes, e.dependencies n = d.dependencies n) : e = d := by
  have hentries : e.entries = d.entries := by
    rw [entries_eq hd, entries_eq (hnodes ▸ hd), hnodes]
    exact List.map_congr_left fun n hn => by rw [hdeps n hn]
  exact congrArg Dag.mk hentries

theorem mem_edges_iff {d : Dag α} (hd : d.nodes.Nodup) {a b : α} :
    (a, b) ∈ d.edges ↔ d.Edge a b := by
  simp only [edges, List.mem_flatMap, List.mem_map, Prod.mk.injEq]
  constructor
  · rintro ⟨e, he, c, hc, rfl, rfl⟩
    rw [Edge, dependencies_of_mem_entries hd he]
    exact hc
  · intro h
    exact ⟨_, mem_entries_dependencies h.mem_nodes, b, h, rfl, rfl⟩

theorem mem_dependents_iff {d : Dag α} {a b : α} : a ∈ d.dependents b ↔ d.Edge a b := by
  simp only [dependents, List.mem_filter, decide_eq_true_eq]
  exact ⟨fun h => h.2, fun h => ⟨h.mem_nodes, h⟩⟩

/-! ## Edits -/

@[simp] theorem dependencies_empty (n : α) : (empty : Dag α).dependencies n = [] := rfl

theorem dependencies_snoc (d : Dag α) (n m : α) :
    dependencies ⟨d.entries ++ [(n, [])]⟩ m = d.dependencies m := by
  simp only [dependencies, List.lookup_append]
  cases d.entries.lookup m with
  | some deps => rfl
  | none =>
    by_cases h : m = n
    · simp [h]
    · simp [lookup_cons_of_ne h]

@[simp] theorem nodes_dropNode (d : Dag α) (n : α) :
    (d.dropNode n).nodes = d.nodes.filter (· ≠ n) := by
  simp only [nodes, dropNode, List.map_map, List.filter_map]
  rfl

theorem dependencies_dropNode (d : Dag α) (n m : α) :
    (d.dropNode n).dependencies m = if m = n then [] else (d.dependencies m).filter (· ≠ n) := by
  simp only [dependencies, dropNode]
  rw [lookup_map_value fun _ (deps : List α) => deps.filter (· ≠ n),
    lookup_filter_key fun k => k ≠ n]
  by_cases h : m = n
  · simp [h]
  · cases hv : d.entries.lookup m <;> simp [h]

theorem link_eq (d : Dag α) (source target : α) :
    d.link source target =
      ⟨d.entries.map fun e => (e.1, if e.1 = source then e.2 ++ [target] else e.2)⟩ := by
  rw [link]
  congr 2
  funext e
  split <;> rfl

@[simp] theorem nodes_link (d : Dag α) (source target : α) :
    (d.link source target).nodes = d.nodes := by
  simp only [link_eq, nodes, List.map_map]
  rfl

theorem dependencies_link {d : Dag α} {source : α} (hs : source ∈ d.nodes) (target n : α) :
    (d.link source target).dependencies n =
      if n = source then d.dependencies n ++ [target] else d.dependencies n := by
  simp only [dependencies, link_eq]
  rw [lookup_map_value fun k (deps : List α) => if k = source then deps ++ [target] else deps]
  by_cases h : n = source
  · obtain ⟨deps, hv⟩ := exists_lookup_eq_some hs
    simp [h, hv]
  · cases hv : d.entries.lookup n <;> simp [h]

theorem edge_link_iff {d : Dag α} {source target : α} (hs : source ∈ d.nodes) {a b : α} :
    (d.link source target).Edge a b ↔ d.Edge a b ∨ (a = source ∧ b = target) := by
  rw [Edge, dependencies_link hs]
  by_cases h : a = source <;> simp [h, Edge]

theorem unlink_eq (d : Dag α) (source target : α) :
    d.unlink source target =
      ⟨d.entries.map fun e => (e.1, if e.1 = source then e.2.filter (· ≠ target) else e.2)⟩ := by
  rw [unlink]
  congr 2
  funext e
  split <;> rfl

@[simp] theorem nodes_unlink (d : Dag α) (source target : α) :
    (d.unlink source target).nodes = d.nodes := by
  simp only [unlink_eq, nodes, List.map_map]
  rfl

theorem dependencies_unlink (d : Dag α) (source target n : α) :
    (d.unlink source target).dependencies n =
      if n = source then (d.dependencies n).filter (· ≠ target) else d.dependencies n := by
  simp only [dependencies, unlink_eq]
  rw [lookup_map_value fun k (deps : List α) =>
    if k = source then deps.filter (· ≠ target) else deps]
  by_cases h : n = source <;> cases hv : d.entries.lookup n <;> simp [h]

/-! ## Graphs that are cut down -/

@[simp] theorem nodes_reduce (d : Dag α) : d.reduce.nodes = d.nodes := by
  simp only [reduce, nodes, List.map_map]
  rfl

theorem dependencies_reduce (d : Dag α) (n : α) :
    d.reduce.dependencies n =
      (d.dependencies n).filter (!d.isImplied (d.dependencies n) ·) := by
  simp only [dependencies, reduce]
  rw [lookup_map_value fun _ (deps : List α) => deps.filter (!d.isImplied deps ·)]
  cases hv : d.entries.lookup n <;> simp

/-- The nodes of a list that are kept, with the edges between them. -/
def keep (d : Dag α) (kept : List α) : Dag α :=
  ⟨(d.entries.filter (·.1 ∈ kept)).map fun e => (e.1, e.2.filter (· ∈ kept))⟩

theorem restrict_eq (d : Dag α) (ns : List α) : d.restrict ns = (d.closure ns).map d.keep := rfl

@[simp] theorem nodes_keep (d : Dag α) (kept : List α) :
    (d.keep kept).nodes = d.nodes.filter (· ∈ kept) := by
  simp only [nodes, keep, List.map_map, List.filter_map]
  rfl

theorem dependencies_keep (d : Dag α) (kept : List α) (n : α) :
    (d.keep kept).dependencies n =
      if n ∈ kept then (d.dependencies n).filter (· ∈ kept) else [] := by
  simp only [dependencies, keep]
  rw [lookup_map_value fun _ (deps : List α) => deps.filter (· ∈ kept),
    lookup_filter_key fun k => k ∈ kept]
  by_cases h : n ∈ kept <;> cases hv : d.entries.lookup n <;> simp [h]

end Rollout.Dag

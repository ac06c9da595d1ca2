import Rollout.Proofs.Dag.Indexed

/-!
# Edits of the order and the map of a graph

Each edit of the order and the map of a well-formed graph finds its keys, and it leaves the order
and the map of the graph after the edit. A refused one leaves those it was given.

* `update_link`, `update_unlink`, `foldl_update`, `foldl_push`: the map after an edit in place.
* `transpose?_indexed`, `restrict?_indexed`, `reduce?_indexed`: the derived graphs.
* `allDependenciesOf?_indexed`, `allDependentsOf?_indexed`: the queries that derive a graph.
* `answer`, `WellFormed.perform_indexed`: all edits at once.
-/

namespace Rollout.Dag

variable {α : Type}

theorem indexed_snoc (d : Dag α) (n : α) :
    d.indexed.push n [] = indexed ⟨d.entries ++ [(n, [])]⟩ := by
  simp only [Indexed.push, indexed, nodes_snoc]

/-- Nodes with their dependencies pushed one by one. -/
theorem foldl_push (f : α → List α) (ns : List α) (t : Indexed α) :
    ns.foldl (fun t n => t.push n (f n)) t =
      ⟨t.order ++ ns, t.index ++ ns.map fun n => (n, f n)⟩ := by
  induction ns generalizing t with
  | nil => simp
  | cons n ns ih =>
    rw [List.foldl_cons, ih, Indexed.push]
    simp only [List.append_assoc, List.cons_append, List.nil_append, List.map_cons]

variable [DecidableEq α]

/-! ## One edit in place -/

theorem update_link (d : Dag α) (source target : α) :
    d.indexed.update source (· ++ [target]) = (d.link source target).indexed := by
  simp only [Indexed.update, indexed, nodes_link]
  rfl

theorem update_unlink (d : Dag α) (source target : α) :
    d.indexed.update source (·.filter (· ≠ target)) = (d.unlink source target).indexed := by
  simp only [Indexed.update, indexed, nodes_unlink]
  rfl

/-- Distinct nodes updated one by one: each binding changes at most once. -/
theorem foldl_update (f : α → List α → List α) {ns : List α} (hns : ns.Nodup) (t : Indexed α) :
    ns.foldl (fun t n => t.update n (f n)) t =
      { t with index := t.index.map fun e => if e.1 ∈ ns then (e.1, f e.1 e.2) else e } := by
  induction ns generalizing t with
  | nil => simp
  | cons n ns ih =>
    obtain ⟨hn, hns⟩ := List.nodup_cons.1 hns
    rw [List.foldl_cons, ih hns, Indexed.update]
    simp only [List.map_map, Indexed.mk.injEq, true_and]
    refine List.map_congr_left fun e _ => ?_
    rw [Function.comp_apply]
    by_cases h : e.1 = n
    · subst h
      simp [hn]
    · simp [h]

/-! ## Nodes and edges -/

theorem addNode_indexed (d : Dag α) (n : α) :
    d.indexed.addNode n = d.answer (d.addNode n) := by
  by_cases hn : n ∈ d.nodes
  · simp [Indexed.addNode, addNode, answer, hasKey_indexed, hn]
  · simp [Indexed.addNode, addNode, answer, hasKey_indexed, hn, indexed_snoc]

theorem ensureNode_indexed (d : Dag α) (n : α) :
    d.indexed.ensureNode n = (d.ensureNode n).indexed := by
  by_cases hn : n ∈ d.nodes
  · simp [Indexed.ensureNode, ensureNode, hasKey_indexed, hn]
  · simp [Indexed.ensureNode, ensureNode, hasKey_indexed, hn, indexed_snoc]

theorem indexed_dropNode (d : Dag α) (n : α) :
    (d.dropNode n).indexed =
      ⟨d.nodes.filter (· ≠ n),
        (d.entries.filter (·.1 ≠ n)).map fun e => (e.1, e.2.filter (· ≠ n))⟩ := by
  rw [indexed, nodes_dropNode]
  rfl

theorem removeNode_indexed (d : Dag α) (n : α) :
    d.indexed.removeNode n = d.answer (d.removeNode n) := by
  by_cases hn : n ∈ d.nodes
  · rw [Indexed.removeNode, at?_of_mem hn, removeNode, if_pos hn, answer, indexed_dropNode]
    rfl
  · rw [Indexed.removeNode, at?_of_not_mem hn, removeNode, if_neg hn, answer]

theorem discardNode_indexed (d : Dag α) (n : α) :
    d.indexed.discardNode n = (d.discardNode n).indexed := by
  rw [Indexed.discardNode, removeNode_indexed, removeNode, discardNode]
  split <;> rfl

/-- The edge is tried on a copy: when that cannot be sorted, order and map are those from before. -/
theorem addEdge?_indexed {d : Dag α} (hd : d.WellFormed) (source target : α) :
    d.indexed.addEdge? source target = some (d.answer (d.addEdge source target)) := by
  rw [Indexed.addEdge?, addEdge, hasKey_indexed, hasKey_indexed]
  by_cases hs : source ∈ d.nodes
  · by_cases ht : target ∈ d.nodes
    · rw [if_neg (by simpa using hs), if_neg (by simpa using ht), if_neg (not_not.2 hs),
        if_neg (not_not.2 ht), at?_of_mem hs, Option.bind_eq_bind, Option.bind_some]
      by_cases hst : target ∈ d.dependencies source
      · rw [if_pos hst, if_pos hst]
        rfl
      · have hsort := sort?_indexed (hd.simple_link hs ht hst)
        simp only [if_neg hst, update_link, hsort]
        cases (d.link source target).sort <;> rfl
    · rw [if_neg (by simpa using hs), if_pos (by simpa using ht), if_neg (not_not.2 hs), if_pos ht]
      rfl
  · rw [if_pos (by simpa using hs), if_pos hs]
    rfl

/-- An edge taken away that was not there: the map was edited all the same, but to no effect. -/
theorem unlink_of_not_edge {d : Dag α} (hd : d.nodes.Nodup) {source target : α}
    (h : ¬ d.Edge source target) : d.unlink source target = d := by
  have hentries : d.entries.map
      (fun e => if e.1 = source then (e.1, e.2.filter (· ≠ target)) else e) = d.entries := by
    refine (List.map_congr_left fun e he => ?_).trans (List.map_id' d.entries)
    split
    · next hsource =>
      have hnot : target ∉ e.2 := by
        rw [← dependencies_of_mem_entries hd he, hsource]
        exact h
      rw [List.filter_eq_self.2 fun m hm => by simpa using fun hmt : m = target => hnot (hmt ▸ hm)]
    · rfl
  rw [unlink, hentries]

theorem removeEdge_indexed {d : Dag α} (hd : d.nodes.Nodup) (source target : α) :
    d.indexed.removeEdge source target = d.answer (d.removeEdge source target) := by
  rw [Indexed.removeEdge, removeEdge, at?_indexed]
  by_cases hs : source ∈ d.nodes
  · simp only [if_pos hs, update_unlink, List.length_filter_eq_length_iff]
    by_cases hst : target ∈ d.dependencies source
    · have hall : ¬ ∀ m ∈ d.dependencies source, decide (m ≠ target) = true := by
        intro h
        simpa using h target hst
      rw [if_neg hall, if_pos hst]
      rfl
    · have hall : ∀ m ∈ d.dependencies source, decide (m ≠ target) = true := by
        intro m hm
        simpa using fun h : m = target => hst (h ▸ hm)
      rw [if_pos hall, if_neg hst, unlink_of_not_edge hd hst]
      rfl
  · rw [if_neg hs, if_neg (by simp [dependencies_of_not_mem hs])]
    rfl

/-! ## Derived graphs -/

/-- Turning the edges of a list round, one by one, on either form of the graph. -/
theorem foldl_update_flipped (es : List (α × α)) (t : Dag α) :
    es.foldl (fun s e => s.update e.2 (· ++ [e.1])) t.indexed =
      (es.foldl (fun t e => t.link e.2 e.1) t).indexed := by
  induction es generalizing t with
  | nil => rfl
  | cons e es ih => rw [List.foldl_cons, List.foldl_cons, update_link, ih]

theorem transpose?_indexed {d : Dag α} (hd : d.nodes.Nodup) :
    d.indexed.transpose? = some d.transpose.indexed := by
  have hstart : (⟨d.nodes, d.nodes.map (·, [])⟩ : Indexed α) = d.bare.indexed := by
    rw [indexed, nodes_bare, bare, nodes, List.map_map]
    rfl
  have hstep : ∀ n ∈ d.nodes, ∀ t : Indexed α,
      (d.indexed.at? n).map (fun deps => deps.foldl (fun t m => t.update m (· ++ [n])) t) =
        some ((d.dependencies n).foldl (fun t m => t.update m (· ++ [n])) t) := by
    intro n hn t
    rw [at?_of_mem hn, Option.map_some]
  rw [transpose, ← foldl_update_flipped, edges_eq hd, List.foldl_flatMap, ← hstart]
  simp only [List.foldl_map]
  exact Option.foldlM_eq_some hstep

theorem closure?_indexed {d : Dag α} (hd : d.Simple) (kept ns : List α) :
    d.indexed.closure? kept ns =
      some (ns.foldlM (fun kept n => (d.reachOf n).map (kept ++ · ++ [n])) kept) := by
  induction ns generalizing kept with
  | nil => rfl
  | cons n ns ih =>
    rw [Indexed.closure?, reachOf?_indexed hd, List.foldlM_cons, Option.bind_eq_bind,
      Option.bind_some]
    cases d.reachOf n with
    | error r => rfl
    | ok reached => exact ih _

theorem indexed_keep {d : Dag α} (hd : d.nodes.Nodup) (kept : List α) :
    (d.keep kept).indexed =
      (d.nodes.filter (· ∈ kept)).foldl
        (fun t n => t.push n ((d.dependencies n).filter (· ∈ kept))) Indexed.empty := by
  rw [foldl_push, indexed, nodes_keep, keep, entries_eq hd, List.filter_map, List.map_map]
  rfl

theorem restrict?_indexed {d : Dag α} (hd : d.Simple) (ns : List α) :
    d.indexed.restrict? ns = some ((d.restrict ns).map indexed) := by
  rw [Indexed.restrict?, closure?_indexed hd, restrict_eq, Option.bind_eq_bind, Option.bind_some]
  rw [← closure]
  cases d.closure ns with
  | error r => rfl
  | ok kept =>
    have hstep : ∀ n ∈ d.indexed.order.filter (· ∈ kept), ∀ t : Indexed α,
        (d.indexed.at? n).map (fun deps => t.push n (deps.filter (· ∈ kept))) =
          some (t.push n ((d.dependencies n).filter (· ∈ kept))) := by
      intro n hn t
      rw [at?_of_mem (List.mem_filter.1 hn).1, Option.map_some]
    simp only [Option.foldlM_eq_some hstep, Except.map, indexed_keep hd.nodup_nodes]
    rfl

theorem closures?_indexed {d : Dag α} (hd : d.Simple) :
    d.indexed.closures? = some (d.nodes.map fun n => (n, d.reach n)) := by
  refine Option.mapM_eq_some fun n hn => ?_
  rw [reachOf?_indexed hd, reachOf_eq_ok hn]
  rfl

theorem isImplied?_indexed {d : Dag α} {deps : List α} (hdeps : ∀ m ∈ deps, m ∈ d.nodes)
    (target : α) :
    Indexed.isImplied? (d.nodes.map fun n => (n, d.reach n)) deps target =
      some (d.isImplied deps target) := by
  refine Option.anyM_eq_some fun other hother => ?_
  rw [lookup_map_self d.reach (hdeps other hother)]
  by_cases h : other = target
  · simp [h]
  · simp [h]

theorem reduce?_indexed {d : Dag α} (hd : d.Simple) :
    d.indexed.reduce? = some d.reduce.indexed := by
  -- What is dropped at a node is told by the list that is bound to it from the start.
  have hstep : ∀ n ∈ d.nodes, ∀ t : Indexed α,
      (do
        let deps ← d.indexed.at? n
        let redundant ← Indexed.select?
          (Indexed.isImplied? (d.nodes.map fun n => (n, d.reach n)) deps) deps
        pure (t.update n (·.filter (· ∉ redundant)))) =
      some (t.update n
        (·.filter (· ∉ (d.dependencies n).filter (d.isImplied (d.dependencies n))))) := by
    intro n hn t
    have hsel := Indexed.select?_eq_some (l := d.dependencies n) fun m _ =>
      isImplied?_indexed (fun k hk => hd.closed n k hk) m
    rw [at?_of_mem hn, Option.bind_eq_bind, Option.bind_some, hsel]
    rfl
  have hfold := Option.foldlM_eq_some hstep (b := d.indexed)
  rw [foldl_update _ hd.nodup_nodes] at hfold
  rw [Indexed.reduce?, closures?_indexed hd, Option.bind_eq_bind, Option.bind_some]
  refine hfold.trans (congrArg some ?_)
  rw [indexed, indexed, nodes_reduce, reduce]
  simp only [Indexed.mk.injEq, true_and]
  refine List.map_congr_left fun e he => ?_
  have hn : e.1 ∈ d.nodes := List.mem_map_of_mem he
  rw [if_pos hn, dependencies_of_mem_entries hd.nodup_nodes he]
  refine congrArg (e.1, ·) (List.filter_congr fun m hm => ?_)
  cases h : d.isImplied e.2 m <;> simp [hm, h]

/-! ## Queries that derive a graph -/

theorem allDependenciesOf?_indexed {d : Dag α} (hd : d.Simple) (n : α) :
    d.indexed.allDependenciesOf? n = some (d.allDependenciesOf n) := by
  rw [Indexed.allDependenciesOf?, reachOf?_indexed hd, sort?_indexed hd, allDependenciesOf]
  cases d.reachOf n with
  | error r => rfl
  | ok seen => cases d.sort <;> rfl

theorem allDependentsOf?_indexed {d : Dag α} (hd : d.Simple) (n : α) :
    d.indexed.allDependentsOf? n = some (d.allDependentsOf n) := by
  rw [Indexed.allDependentsOf?, transpose?_indexed hd.nodup_nodes, Option.bind_eq_bind,
    Option.bind_some, allDependenciesOf?_indexed hd.transpose, allDependentsOf]

/-! ## All edits -/

theorem WellFormed.perform_indexed {d : Dag α} (hd : d.WellFormed) (edit : Edit α) :
    d.indexed.perform edit = some (d.answer (d.perform edit)) := by
  cases edit with
  | addNode n => exact congrArg some (addNode_indexed d n)
  | ensureNode n =>
    rw [Indexed.perform, ensureNode_indexed]
    rfl
  | removeNode n => exact congrArg some (removeNode_indexed d n)
  | discardNode n =>
    rw [Indexed.perform, discardNode_indexed]
    rfl
  | addEdge source target => exact addEdge?_indexed hd source target
  | removeEdge source target =>
    exact congrArg some (removeEdge_indexed hd.nodup_nodes source target)
  | transpose =>
    rw [Indexed.perform, transpose?_indexed hd.nodup_nodes]
    rfl
  | restrict ns =>
    rw [Indexed.perform, restrict?_indexed hd.simple, perform]
    cases d.restrict ns <;> rfl
  | reduce =>
    rw [Indexed.perform, reduce?_indexed hd.simple]
    rfl

end Rollout.Dag

import Rollout.Proofs.Dag.Path

/-!
# Edges turned round

* `map_source_edges_to`: the sources of the edges that lead to a node are its dependents, in order.
* `inDegree_eq`: so there are as many as the sort counts.
* `dependencies_transpose`: and they are what the node depends on when all edges are turned round.
* `edge_transpose_iff`, `path_transpose_iff`: edges and paths the other way.
-/

namespace Rollout.Dag

variable {α : Type} [DecidableEq α]

theorem filter_eq_self_of_nodup {l : List α} (hl : l.Nodup) (n : α) :
    l.filter (· = n) = if n ∈ l then [n] else [] := by
  rw [List.filter_eq]
  split
  · next h => rw [List.count_eq_one_of_mem hl h, List.replicate_one]
  · next h => rw [List.count_eq_zero_of_not_mem h, List.replicate_zero]

/-- The sources of the edges to `n` are the dependents of `n`, in the order of the nodes. -/
theorem map_source_edges_to {d : Dag α} (hd : d.Simple) (n : α) :
    (d.edges.filter (·.2 = n)).map (·.1) = d.dependents n := by
  have key : ∀ l : List (α × List α), (∀ e ∈ l, d.dependencies e.1 = e.2) →
      ((l.flatMap fun e => e.2.map (e.1, ·)).filter (·.2 = n)).map (·.1) =
        (l.map (·.1)).filter fun m => n ∈ d.dependencies m := by
    intro l
    induction l with
    | nil => intro _; rfl
    | cons e l ih =>
      intro hl
      have he : d.dependencies e.1 = e.2 := hl e List.mem_cons_self
      have hn : e.2.Nodup := he ▸ hd.nodup_dependencies e.1
      have hhead : ((e.2.map (e.1, ·)).filter (·.2 = n)).map (·.1) =
          if n ∈ e.2 then [e.1] else [] := by
        rw [List.filter_map, List.map_map]
        have hf := filter_eq_self_of_nodup hn n
        simp only [Function.comp_def]
        rw [hf]
        split <;> rfl
      rw [List.flatMap_cons, List.filter_append, List.map_append, hhead,
        ih fun e' he' => hl e' (List.mem_cons_of_mem _ he'), List.map_cons, List.filter_cons, he]
      split <;> simp_all
  exact key d.entries fun e he => dependencies_of_mem_entries hd.nodup_nodes he

theorem inDegree_eq {d : Dag α} (hd : d.Simple) (n : α) :
    d.inDegree n = (d.dependents n).length := by
  rw [← map_source_edges_to hd, List.length_map, inDegree, List.count_eq_countP, List.countP_map,
    List.countP_eq_length_filter]
  rfl

/-! ## Transposition -/

theorem dependencies_bare (d : Dag α) (n : α) : d.bare.dependencies n = [] := by
  simp only [dependencies, bare]
  rw [lookup_map_value fun _ _ => []]
  cases d.entries.lookup n <;> rfl

/-- Linking the edges of a list one by one, each the other way. -/
theorem foldl_link_flipped (es : List (α × α)) (t : Dag α) (hes : ∀ e ∈ es, e.2 ∈ t.nodes) :
    (es.foldl (fun t e => t.link e.2 e.1) t).nodes = t.nodes ∧
      ∀ n, (es.foldl (fun t e => t.link e.2 e.1) t).dependencies n =
        t.dependencies n ++ (es.filter (·.2 = n)).map (·.1) := by
  induction es generalizing t with
  | nil => simp
  | cons e es ih =>
    have he : e.2 ∈ t.nodes := hes e List.mem_cons_self
    obtain ⟨hnodes, hdeps⟩ := ih (t.link e.2 e.1) fun e' he' => by
      rw [nodes_link]
      exact hes e' (List.mem_cons_of_mem _ he')
    refine ⟨by rw [List.foldl_cons, hnodes, nodes_link], fun n => ?_⟩
    rw [List.foldl_cons, hdeps, dependencies_link he, List.filter_cons]
    by_cases h : e.2 = n
    · simp [h]
    · have h' : n ≠ e.2 := fun hn => h hn.symm
      simp [h, h']

theorem Simple.target_mem_nodes {d : Dag α} (hd : d.Simple) {e : α × α} (he : e ∈ d.edges) :
    e.2 ∈ d.nodes :=
  hd.closed e.1 e.2 ((mem_edges_iff hd.nodup_nodes).1 he)

theorem nodes_transpose {d : Dag α} (hd : d.Simple) : d.transpose.nodes = d.nodes := by
  have h := (foldl_link_flipped d.edges d.bare fun e he => by
    rw [nodes_bare]
    exact hd.target_mem_nodes he).1
  rw [transpose, h, nodes_bare]

/-- What a node depends on in the transposed graph are its dependents, in order. -/
theorem dependencies_transpose {d : Dag α} (hd : d.Simple) (n : α) :
    d.transpose.dependencies n = d.dependents n := by
  have h := (foldl_link_flipped d.edges d.bare fun e he => by
    rw [nodes_bare]
    exact hd.target_mem_nodes he).2 n
  rw [transpose, h, dependencies_bare, List.nil_append, map_source_edges_to hd]

theorem edge_transpose_iff {d : Dag α} (hd : d.Simple) {a b : α} :
    d.transpose.Edge a b ↔ d.Edge b a := by
  rw [Edge, dependencies_transpose hd]
  exact mem_dependents_iff

theorem path_transpose_iff {d : Dag α} (hd : d.Simple) {a b : α} :
    d.transpose.Path a b ↔ d.Path b a :=
  ⟨Path.flip fun _ _ => (edge_transpose_iff hd).1, Path.flip fun _ _ => (edge_transpose_iff hd).2⟩

theorem Simple.transpose {d : Dag α} (hd : d.Simple) : d.transpose.Simple where
  nodup_nodes := nodes_transpose hd ▸ hd.nodup_nodes
  nodup_dependencies n := dependencies_transpose hd n ▸ hd.nodup_dependents n
  closed _ _ h := nodes_transpose hd ▸ ((edge_transpose_iff hd).1 h).mem_nodes

theorem WellFormed.transpose {d : Dag α} (hd : d.WellFormed) : d.transpose.WellFormed :=
  hd.simple.transpose.wellFormed fun n h => hd.acyclic n ((path_transpose_iff hd.simple).1 h)

end Rollout.Dag

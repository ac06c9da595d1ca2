import Mathlib.Order.Bounds.Basic
import Rollout.Proofs.Dag.Duality

/-!
# The least graph with the same paths

A reduction drops all implied edges at once, each of them judged by the paths of the graph as it
was. No path gets lost: among the edges that start a path to the same node there is always one that
no other edge implies.

* `Detour`: a path of two edges or more. `edge_reduce_iff`: the edges that are kept have none beside
  them.
* `WellFormed.exists_kept_edge`: beside an edge that is dropped there is one that is kept.
* `WellFormed.path_reduce_iff`: the paths stay.
* `Spans`: some edges that have all paths of the graph. `WellFormed.isLeast_reduce`: those that are
  kept are in each such choice.
* `Built.reduce_least`: all this of every graph that can be built.
-/

namespace Rollout.Dag

variable {α : Type} [DecidableEq α]

/-! ## Edges with a detour -/

/-- One node depends on another by way of a third one. -/
def Detour (d : Dag α) (a b : α) : Prop := ∃ c, d.Edge a c ∧ d.Path c b

theorem Detour.mono {d e : Dag α} (hsub : ∀ x y, d.Edge x y → e.Edge x y) {a b : α}
    (h : d.Detour a b) : e.Detour a b := by
  obtain ⟨c, first, rest⟩ := h
  exact ⟨c, hsub a c first, rest.mono hsub⟩

/-- A detour walked backwards. -/
theorem Detour.flip {d e : Dag α} (hflip : ∀ x y, d.Edge x y → e.Edge y x) {a b : α}
    (h : d.Detour a b) : e.Detour b a := by
  obtain ⟨c, first, rest⟩ := h
  obtain ⟨k, last, hk⟩ := (rest.flip hflip).exists_first
  refine ⟨k, last, ?_⟩
  rcases hk with rfl | hk
  · exact .edge (hflip a k first)
  · exact hk.snoc (hflip a c first)

theorem detour_transpose_iff {d : Dag α} (hd : d.Simple) {a b : α} :
    d.transpose.Detour a b ↔ d.Detour b a :=
  ⟨.flip fun _ _ => (edge_transpose_iff hd).1, .flip fun _ _ => (edge_transpose_iff hd).2⟩

/-- An edge is implied exactly when there is a detour beside it. -/
theorem isImplied_iff {d : Dag α} (hd : d.WellFormed) {a b : α} :
    d.isImplied (d.dependencies a) b = true ↔ d.Detour a b := by
  simp only [isImplied, List.any_eq_true, decide_eq_true_eq, mem_reach_iff]
  constructor
  · rintro ⟨c, first, -, rest⟩
    exact ⟨c, first, rest⟩
  · rintro ⟨c, first, rest⟩
    -- No other edge is meant: an edge does not imply itself, for this would be a cycle.
    refine ⟨c, first, ?_, rest⟩
    rintro rfl
    exact hd.acyclic c rest

theorem edge_reduce_iff {d : Dag α} (hd : d.WellFormed) {a b : α} :
    d.reduce.Edge a b ↔ d.Edge a b ∧ ¬ d.Detour a b := by
  rw [Edge, dependencies_reduce, List.mem_filter, Bool.not_eq_true', ← isImplied_iff hd,
    Bool.not_eq_true]
  exact Iff.rfl

/-! ## Paths stay -/

/-- An edge is kept, or beside it another one is kept that starts a path to its end. -/
theorem WellFormed.exists_kept_edge {d : Dag α} (hd : d.WellFormed) {a b : α} (h : d.Edge a b) :
    ∃ c, d.reduce.Edge a c ∧ (c = b ∨ d.Path c b) := by
  induction b using hd.transpose.induction_path with
  | step b ih =>
    by_cases hdetour : d.Detour a b
    · -- The detour starts with another edge, whose end is above `b`.
      obtain ⟨k, first, rest⟩ := hdetour
      obtain ⟨c, hc, hck⟩ := ih k ((path_transpose_iff hd.simple).2 rest) first
      refine ⟨c, hc, .inr ?_⟩
      rcases hck with rfl | hck
      · exact rest
      · exact hck.trans rest
    · exact ⟨b, (edge_reduce_iff hd).2 ⟨h, hdetour⟩, .inl rfl⟩

theorem WellFormed.path_reduce_iff {d : Dag α} (hd : d.WellFormed) {a b : α} :
    d.reduce.Path a b ↔ d.Path a b := by
  constructor
  · exact Path.mono fun _ _ h => ((edge_reduce_iff hd).1 h).1
  · induction a using hd.induction_up with
    | step a ih =>
      intro h
      obtain ⟨k, first, hk⟩ := h.exists_first
      obtain ⟨c, hc, hck⟩ := hd.exists_kept_edge first
      have hcb : c = b ∨ d.Path c b := by
        rcases hck with rfl | hck
        · exact hk
        · rcases hk with rfl | hk
          · exact .inr hck
          · exact .inr (hck.trans hk)
      rcases hcb with rfl | hcb
      · exact .edge hc
      · exact .cons hc (ih c ((edge_reduce_iff hd).1 hc).1 hcb)

/-! ## No edge is in vain -/

/-- Some of the edges of a graph, along which the same nodes are reached as in the graph. -/
structure Spans (d : Dag α) (edges : α → α → Prop) : Prop where
  /-- They are edges of the graph. -/
  edge : ∀ a b, edges a b → d.Edge a b
  /-- Chains of them lead where paths of the graph lead. -/
  chain_iff : ∀ a b, Relation.TransGen edges a b ↔ d.Path a b

/-- An edge without a detour beside it is the only path between its ends. -/
theorem Spans.edge_of_not_detour {d : Dag α} {edges : α → α → Prop} (h : d.Spans edges) {a b : α}
    (hedge : d.Edge a b) (hdetour : ¬ d.Detour a b) : edges a b := by
  have hchain : Relation.TransGen edges a b := (h.chain_iff a b).2 (.edge hedge)
  obtain ⟨c, first, rest⟩ := Relation.TransGen.head'_iff.1 hchain
  rcases Relation.reflTransGen_iff_eq_or_transGen.1 rest with rfl | rest
  · exact first
  · exact absurd ⟨c, h.edge a c first, (h.chain_iff c b).1 rest⟩ hdetour

theorem WellFormed.isLeast_reduce {d : Dag α} (hd : d.WellFormed) :
    IsLeast {edges | d.Spans edges} d.reduce.Edge := by
  refine ⟨⟨fun a b h => ((edge_reduce_iff hd).1 h).1, fun a b => ?_⟩, fun edges h a b hab => ?_⟩
  · rw [← path_iff_transGen, hd.path_reduce_iff]
  · obtain ⟨hedge, hdetour⟩ := (edge_reduce_iff hd).1 hab
    exact h.edge_of_not_detour hedge hdetour

theorem WellFormed.hasPath_reduce {d : Dag α} (hd : d.WellFormed) (a b : α) :
    d.reduce.hasPath a b = d.hasPath a b := by
  have hnodes := nodes_reduce d
  by_cases ha : a ∈ d.nodes
  · exact hasPath_congr (hnodes ▸ ha) ha hd.path_reduce_iff
  · rw [hasPath_of_not_mem ha, hasPath_of_not_mem (hnodes ▸ ha)]

/-- Nothing is left to drop. -/
theorem WellFormed.reduce_reduce {d : Dag α} (hd : d.WellFormed) : d.reduce.reduce = d.reduce := by
  have hsub : ∀ x y, d.reduce.Edge x y → d.Edge x y := fun _ _ h => ((edge_reduce_iff hd).1 h).1
  refine ext_views hd.reduce.nodup_nodes (nodes_reduce _) fun n _ => ?_
  rw [dependencies_reduce]
  refine List.filter_eq_self.2 fun m hm => ?_
  rw [Bool.not_eq_true', ← Bool.not_eq_true, isImplied_iff hd.reduce]
  exact fun hdetour => ((edge_reduce_iff hd).1 hm).2 (hdetour.mono hsub)

/-- What is implied does not depend on the direction. -/
theorem WellFormed.same_reduce_transpose {d : Dag α} (hd : d.WellFormed) :
    (d.transpose.reduce == d.reduce.transpose) = true := by
  have hr := hd.reduce.simple
  refine (hd.transpose.reduce.simple.same_iff hr.transpose).2 ⟨fun n => ?_, fun a b => ?_⟩
  · rw [nodes_reduce, nodes_transpose hd.simple, nodes_transpose hr, nodes_reduce]
  · rw [edge_reduce_iff hd.transpose, edge_transpose_iff hd.simple, detour_transpose_iff hd.simple,
      edge_transpose_iff hr, edge_reduce_iff hd]

/-- A reduction keeps the nodes in their order, some of the dependencies of each node in theirs, and
all answers about paths. Of all choices of edges of the graph that have its paths, the one that is
kept is the least: each of the others contains it. So a second reduction changes nothing, and it
does not matter whether a graph is turned round before or after it. -/
theorem Built.reduce_least {d : Dag α} (h : d.Built) :
    d.reduce.nodes = d.nodes ∧
    (∀ n, (d.reduce.dependencies n).Sublist (d.dependencies n)) ∧
    (∀ a b, d.reduce.hasPath a b = d.hasPath a b) ∧
    IsLeast {edges | d.Spans edges} d.reduce.Edge ∧
    d.reduce.reduce = d.reduce ∧
    (d.transpose.reduce == d.reduce.transpose) = true := by
  have hd := h.wellFormed
  refine ⟨nodes_reduce d, fun n => ?_, hd.hasPath_reduce, hd.isLeast_reduce, hd.reduce_reduce,
    hd.same_reduce_transpose⟩
  rw [dependencies_reduce]
  exact List.filter_sublist

/-- Four nodes in a row with all edges that the row implies. -/
def row : Dag Nat := ⟨[(1, [4, 2, 3]), (2, [4, 3]), (3, [4]), (4, [])]⟩

/-- Every choice of edges with the same paths has those from a node to the next one of the row. -/
theorem reduce_least_row :
    ∃ d : Dag Nat, d.Built ∧
      d.toDependencies = [(1, [4, 2, 3]), (2, [4, 3]), (3, [4]), (4, [])] ∧
      (∀ edges, d.Spans edges → edges 1 2 ∧ edges 2 3 ∧ edges 3 4) ∧
      d.reduce.hasPath 1 4 = .ok true := by
  have hd : row.Built :=
    built_of_ofDependencies [(1, [4, 2, 3]), (2, [4, 3]), (3, [4]), (4, [])] (by decide +kernel)
  obtain ⟨-, -, hpath, ⟨-, hleast⟩, -, -⟩ := hd.reduce_least
  refine ⟨_, hd, rfl, fun edges h => ?_,
    (hpath 1 4).trans (hasPath_eq_true_iff.2 ⟨by decide, .edge (by decide)⟩)⟩
  have hup : ∀ a b, row.Edge a b → a < b := fun a b hab =>
    (by decide : ∀ e ∈ row.edges, e.1 < e.2) (a, b)
      ((mem_edges_iff hd.wellFormed.nodup_nodes).2 hab)
  -- Edges lead upwards, so there is no room for a detour from a node to the one after it.
  have hnext : ∀ a, row.Edge a (a + 1) → edges a (a + 1) := by
    refine fun a ha => hleast h _ _ ((edge_reduce_iff hd.wellFormed).2 ⟨ha, ?_⟩)
    rintro ⟨c, first, rest⟩
    have hfirst := hup a c first
    have hrest : c < a + 1 := rest.induction_closed
      (fun x y hx hxy => hx.trans (hup x y hxy)) fun x hx => hup c x hx
    omega
  exact ⟨hnext 1 (by decide), hnext 2 (by decide), hnext 3 (by decide)⟩

end Rollout.Dag

import Mathlib.Logic.Relation
import Mathlib.Order.WellFoundedSet
import Rollout.Proofs.Dag.Edits

/-!
# Paths and well-founded graphs

* `Path.trans`, `Path.snoc`, `Path.flip`: paths are put together and turned round.
* `path_iff_transGen`, `path_iff_transGen_of_edge`: they are the chains of edges.
* `Simple`: a graph as it has to be, apart from cycles.
* `wellFounded_needs`: in a graph without cycles nobody can go on from dependency to dependency for
  ever. `WellFormed.induction_up` and `WellFormed.induction_down` are the two inductions that this
  allows: from what a node needs to the node, and from its dependents to the node.
-/

namespace Rollout.Dag

variable {α : Type} [DecidableEq α]

namespace Path

variable {d e : Dag α} {a b c : α}

theorem trans (h : d.Path a b) (h' : d.Path b c) : d.Path a c := by
  induction h with
  | edge first => exact .cons first h'
  | cons first _ ih => exact .cons first (ih h')

theorem snoc (h : d.Path a b) (last : d.Edge b c) : d.Path a c := h.trans (.edge last)

theorem mem_nodes (h : d.Path a b) : a ∈ d.nodes := by
  cases h with
  | edge first => exact first.mem_nodes
  | cons first _ => exact first.mem_nodes

/-- The first edge of a path, and what is left of it. -/
theorem exists_first (h : d.Path a b) : ∃ c, d.Edge a c ∧ (c = b ∨ d.Path c b) := by
  cases h with
  | edge first => exact ⟨b, first, .inl rfl⟩
  | cons first rest => exact ⟨_, first, .inr rest⟩

/-- The last edge of a path, and what comes before it. -/
theorem exists_last (h : d.Path a b) : ∃ c, (a = c ∨ d.Path a c) ∧ d.Edge c b := by
  induction h with
  | edge first => exact ⟨_, .inl rfl, first⟩
  | cons first _ ih =>
    obtain ⟨c, hc, last⟩ := ih
    refine ⟨c, .inr ?_, last⟩
    rcases hc with rfl | hc
    · exact .edge first
    · exact .cons first hc

theorem mono (hsub : ∀ x y, d.Edge x y → e.Edge x y) (h : d.Path a b) : e.Path a b := by
  induction h with
  | edge first => exact .edge (hsub _ _ first)
  | cons first _ ih => exact .cons (hsub _ _ first) ih

/-- A path is walked backwards in a graph with all edges turned round. -/
theorem flip (hflip : ∀ x y, d.Edge x y → e.Edge y x) (h : d.Path a b) : e.Path b a := by
  induction h with
  | edge first => exact .edge (hflip _ _ first)
  | cons first _ ih => exact ih.snoc (hflip _ _ first)

/-- What is closed under dependencies and holds all that `a` depends on directly holds all that it
depends on. -/
theorem induction_closed {P : α → Prop} (hclosed : ∀ x y, P x → d.Edge x y → P y)
    (hfirst : ∀ x, d.Edge a x → P x) (h : d.Path a b) : P b := by
  induction h with
  | edge first => exact hfirst _ first
  | cons first _ ih => exact ih fun x hx => hclosed _ x (hfirst _ first) hx

end Path

/-- Paths are chains of edges. -/
theorem path_iff_transGen {d : Dag α} {a b : α} :
    d.Path a b ↔ Relation.TransGen d.Edge a b := by
  constructor
  · intro h
    induction h with
    | edge first => exact .single first
    | cons first _ ih => exact .head first ih
  · intro h
    induction h with
    | single first => exact .edge first
    | tail _ last ih => exact ih.snoc last

/-- If the edges are told by a relation, so are the paths. -/
theorem path_iff_transGen_of_edge {d : Dag α} {R : α → α → Prop} (h : ∀ a b, d.Edge a b ↔ R a b)
    {a b : α} : d.Path a b ↔ Relation.TransGen R a b := by
  have hedge : d.Edge = R := by
    funext x y
    exact propext (h x y)
  rw [path_iff_transGen, hedge]

/-! ## Simple graphs -/

/-- No node and no edge occurs twice, and edges lead to nodes. -/
structure Simple (d : Dag α) : Prop where
  /-- Each node occurs once. -/
  nodup_nodes : d.nodes.Nodup
  /-- Each edge occurs once. -/
  nodup_dependencies : ∀ n, (d.dependencies n).Nodup
  /-- Edges lead to nodes. -/
  closed : ∀ n m, d.Edge n m → m ∈ d.nodes

theorem WellFormed.simple {d : Dag α} (h : d.WellFormed) : d.Simple :=
  ⟨h.nodup_nodes, h.nodup_dependencies, h.closed⟩

theorem Simple.wellFormed {d : Dag α} (h : d.Simple) (ha : ∀ n, ¬ d.Path n n) : d.WellFormed :=
  ⟨h.nodup_nodes, h.nodup_dependencies, h.closed, ha⟩

theorem Simple.path_mem_nodes {d : Dag α} (h : d.Simple) {a b : α} (hp : d.Path a b) :
    b ∈ d.nodes := by
  obtain ⟨c, -, last⟩ := hp.exists_last
  exact h.closed c b last

theorem Simple.nodup_dependents {d : Dag α} (h : d.Simple) (n : α) : (d.dependents n).Nodup :=
  h.nodup_nodes.filter _

/-! ## Well-founded graphs -/

/-- There are finitely many nodes, so a graph without cycles has no endless chain of nodes each of
which needs the next one. -/
theorem wellFounded_needs {d : Dag α} (hc : ∀ n m, d.Edge n m → m ∈ d.nodes)
    (ha : ∀ n, ¬ d.Path n n) : WellFounded fun m n => d.Edge n m := by
  have : IsStrictOrder α fun m n => d.Path n m :=
    { irrefl := ha, trans := fun _ _ _ h h' => h'.trans h }
  have hw := Set.wellFoundedOn_iff.1
    ((List.finite_toSet d.nodes).wellFoundedOn (r := fun m n => d.Path n m))
  exact Subrelation.wf (fun h => ⟨.edge h, hc _ _ h, h.mem_nodes⟩) hw

/-- The same the other way: no endless chain of nodes each of which is needed by the next one. -/
theorem wellFounded_neededBy {d : Dag α} (hc : ∀ n m, d.Edge n m → m ∈ d.nodes)
    (ha : ∀ n, ¬ d.Path n n) : WellFounded d.Edge := by
  have : IsStrictOrder α d.Path := { irrefl := ha, trans := fun _ _ _ h h' => h.trans h' }
  have hw := Set.wellFoundedOn_iff.1 ((List.finite_toSet d.nodes).wellFoundedOn (r := d.Path))
  exact Subrelation.wf (fun h => ⟨.edge h, h.mem_nodes, hc _ _ h⟩) hw

/-- Induction from what a node needs to the node. -/
theorem WellFormed.induction_up {d : Dag α} (h : d.WellFormed) {P : α → Prop}
    (step : ∀ n, (∀ m, d.Edge n m → P m) → P n) (n : α) : P n :=
  (wellFounded_needs h.closed h.acyclic).induction n step

/-- Induction from all that a node needs, directly or not, to the node. -/
theorem WellFormed.induction_path {d : Dag α} (h : d.WellFormed) {P : α → Prop}
    (step : ∀ n, (∀ m, d.Path n m → P m) → P n) (n : α) : P n := by
  have key : ∀ n m, d.Path n m → P m := h.induction_up fun n ih m hm => by
    cases hm with
    | edge first => exact step m (ih m first)
    | cons first rest => exact ih _ first m rest
  exact step n (key n)

/-- Induction from the dependents of a node to the node. -/
theorem WellFormed.induction_down {d : Dag α} (h : d.WellFormed) {P : α → Prop}
    (step : ∀ n, (∀ m, d.Edge m n → P m) → P n) (n : α) : P n :=
  (wellFounded_neededBy h.closed h.acyclic).induction n step

end Rollout.Dag

import Rollout.Dag.Refusal

/-!
# Dependency graphs

A graph lists its nodes in the order of their insertion, each with the nodes it depends on in the
order in which these edges were added. An edge points from a node to one that it needs.

* `nodes`, `dependencies`, `dependents`, `edges`: the views.
* `addNode`, `removeNode`, `removeEdge`: the edits that cannot close a cycle. Adding an edge can,
  and stands with the operations that sort and search.
* `same`: equality up to the order of nodes and of edges.
* `Edge` and `Path`: what it means that one node depends on another, apart from any search for it.
* `WellFormed`: no node and no edge occurs twice, edges lead to nodes, and no path leads back.
-/

namespace Rollout

/-- Nodes in insertion order, each with its direct dependencies. -/
structure Dag (α : Type) where
  /-- The nodes with their dependencies. -/
  entries : List (α × List α)
  deriving Repr

namespace Dag

variable {α : Type}

/-- The graph without nodes. -/
def empty : Dag α := ⟨[]⟩

instance : Inhabited (Dag α) := ⟨empty⟩

/-- The nodes in insertion order. -/
def nodes (d : Dag α) : List α := d.entries.map (·.1)

/-- The number of nodes. -/
def size (d : Dag α) : Nat := d.entries.length

/-- The graph has no node. -/
def isEmpty (d : Dag α) : Bool := d.entries.isEmpty

/-- The edges, those of earlier nodes first. -/
def edges (d : Dag α) : List (α × α) := d.entries.flatMap fun e => e.2.map (e.1, ·)

/-- The same nodes without any edge. -/
def bare (d : Dag α) : Dag α := ⟨d.entries.map fun e => (e.1, [])⟩

variable [DecidableEq α]

/-- What `n` depends on directly; nothing if `n` is no node. -/
def dependencies (d : Dag α) (n : α) : List α := (d.entries.lookup n).getD []

/-- The nodes that depend on `n` directly, in insertion order. -/
def dependents (d : Dag α) (n : α) : List α := d.nodes.filter fun m => n ∈ d.dependencies m

/-- `n` is a node. -/
def contains (d : Dag α) (n : α) : Bool := n ∈ d.nodes

/-- The direct dependencies of a node. -/
def dependenciesOf (d : Dag α) (n : α) : Except (Refusal α) (List α) :=
  if n ∈ d.nodes then .ok (d.dependencies n) else .error (.missingNode n)

/-- The direct dependents of a node. -/
def dependentsOf (d : Dag α) (n : α) : Except (Refusal α) (List α) :=
  if n ∈ d.nodes then .ok (d.dependents n) else .error (.missingNode n)

/-- The nodes that no node depends on. -/
def independentNodes (d : Dag α) : List α := d.nodes.filter fun n => n ∉ d.edges.map (·.2)

/-- The nodes without dependencies. -/
def leaves (d : Dag α) : List α := d.nodes.filter fun n => d.dependencies n = []

/-- The graph with a new node at the end. -/
def addNode (d : Dag α) (n : α) : Except (Refusal α) (Dag α) :=
  if n ∈ d.nodes then .error (.duplicateNode n) else .ok ⟨d.entries ++ [(n, [])]⟩

/-- The graph with the node `n`, at the end if it is new. -/
def ensureNode (d : Dag α) (n : α) : Dag α :=
  if n ∈ d.nodes then d else ⟨d.entries ++ [(n, [])]⟩

/-- The graph without `n` and without the edges that point to it. -/
def dropNode (d : Dag α) (n : α) : Dag α :=
  ⟨(d.entries.filter (·.1 ≠ n)).map fun e => (e.1, e.2.filter (· ≠ n))⟩

/-- The graph without the node `n` and its edges. -/
def removeNode (d : Dag α) (n : α) : Except (Refusal α) (Dag α) :=
  if n ∈ d.nodes then .ok (d.dropNode n) else .error (.missingNode n)

/-- The graph without the node `n`, whether or not it was there. -/
def discardNode (d : Dag α) (n : α) : Dag α := if n ∈ d.nodes then d.dropNode n else d

/-- The graph with `target` appended to the dependencies of `source`. -/
def link (d : Dag α) (source target : α) : Dag α :=
  ⟨d.entries.map fun e => if e.1 = source then (e.1, e.2 ++ [target]) else e⟩

/-- The graph without the edge from `source` to `target`. -/
def unlink (d : Dag α) (source target : α) : Dag α :=
  ⟨d.entries.map fun e => if e.1 = source then (e.1, e.2.filter (· ≠ target)) else e⟩

/-- The graph without the edge from `source` to `target`, which has to be there. -/
def removeEdge (d : Dag α) (source target : α) : Except (Refusal α) (Dag α) :=
  if target ∈ d.dependencies source then .ok (d.unlink source target)
  else .error (.missingEdge source target)

/-- The same nodes and the same edges, in whatever order. -/
def same (a b : Dag α) : Bool :=
  a.entries.length == b.entries.length &&
    a.entries.all fun e =>
      match b.entries.lookup e.1 with
      | some deps => e.2.length == deps.length && e.2.all (· ∈ deps)
      | none => false

instance : BEq (Dag α) := ⟨same⟩

/-! ## Paths -/

/-- `source` depends on `target` directly. -/
def Edge (d : Dag α) (source target : α) : Prop := target ∈ d.dependencies source

instance (d : Dag α) (source target : α) : Decidable (d.Edge source target) :=
  inferInstanceAs (Decidable (target ∈ d.dependencies source))

/-- One node depends on another along one edge or more. -/
inductive Path (d : Dag α) : α → α → Prop where
  | edge {a b : α} (first : d.Edge a b) : Path d a b
  | cons {a b c : α} (first : d.Edge a b) (rest : Path d b c) : Path d a c

/-- A graph as every operation leaves it. -/
structure WellFormed (d : Dag α) : Prop where
  /-- Each node occurs once. -/
  nodup_nodes : d.nodes.Nodup
  /-- Each edge occurs once. -/
  nodup_dependencies : ∀ n, (d.dependencies n).Nodup
  /-- Edges lead to nodes. -/
  closed : ∀ n m, d.Edge n m → m ∈ d.nodes
  /-- No path leads back to where it began. -/
  acyclic : ∀ n, ¬ d.Path n n

end Dag

end Rollout

import Rollout.Dag.Order
import Rollout.Dag.Reach

/-!
# Operations on graphs

* `addEdge`: a new edge, unless it would close a cycle.
* `ofDependencies`: a graph from a list of nodes with their dependencies. `toDependencies`: that
  list again.
* `transpose`: every edge turned round.
* `restrict`: some nodes with all that they depend on.
* `reduce`: without the edges that longer paths imply.
* `allDependenciesOf`, `allDependentsOf`: everything below or above a node, in the order of a sort.
* `Built`: the graphs that come out of the operations, whichever are used and in whatever order. An
  operation that refuses leaves the graph it was given.
-/

namespace Rollout.Dag

variable {α : Type} [DecidableEq α]

/-! ## Building graphs -/

/-- The graph in which `source` depends on `target` too. Both have to be nodes; an edge that is
there already changes nothing; one that closes a cycle is refused. -/
def addEdge (d : Dag α) (source target : α) : Except (Refusal α) (Dag α) :=
  if source ∉ d.nodes then .error (.missingNode source)
  else if target ∉ d.nodes then .error (.missingNode target)
  else if target ∈ d.dependencies source then .ok d
  else
    let linked := d.link source target
    match linked.sort with
    | .ok _ => .ok linked
    | .error e => .error e

/-- The graph with all nodes of a list added in order. -/
def addNodes (d : Dag α) (ns : List α) : Except (Refusal α) (Dag α) := ns.foldlM addNode d

/-- The graph with all edges of a list added in order. -/
def addEdges (d : Dag α) (es : List (α × α)) : Except (Refusal α) (Dag α) :=
  es.foldlM (fun d e => d.addEdge e.1 e.2) d

/-- The graph of a list of nodes with their dependencies. Every dependency has to be listed as a
node, but not before its dependents. -/
def ofDependencies (entries : List (α × List α)) : Except (Refusal α) (Dag α) := do
  let d ← empty.addNodes (entries.map (·.1))
  d.addEdges (entries.flatMap fun e => e.2.map (e.1, ·))

/-- The nodes in insertion order, each with its dependencies. -/
def toDependencies (d : Dag α) : List (α × List α) := d.entries

/-! ## Graphs derived from a graph -/

/-- The same nodes with every edge turned round. -/
def transpose (d : Dag α) : Dag α := d.edges.foldl (fun t e => t.link e.2 e.1) d.bare

/-- The nodes of a list with all they depend on, or the first that is no node. -/
def closure (d : Dag α) (ns : List α) : Except (Refusal α) (List α) :=
  ns.foldlM (fun kept n => (d.reachOf n).map (kept ++ · ++ [n])) []

/-- The graph of some nodes and all they depend on, in the order they have here. -/
def restrict (d : Dag α) (ns : List α) : Except (Refusal α) (Dag α) :=
  (d.closure ns).map fun kept =>
    ⟨(d.entries.filter (·.1 ∈ kept)).map fun e => (e.1, e.2.filter (· ∈ kept))⟩

/-- The edge to `target` is implied: another of the dependencies reaches it. -/
def isImplied (d : Dag α) (dependencies : List α) (target : α) : Bool :=
  dependencies.any fun other => other ≠ target ∧ target ∈ d.reach other

/-- The graph without its implied edges. What is reached from a node stays the same. -/
def reduce (d : Dag α) : Dag α :=
  ⟨d.entries.map fun e => (e.1, e.2.filter (!d.isImplied e.2 ·))⟩

/-- What a node depends on, directly or not, each before its own dependencies. -/
def allDependenciesOf (d : Dag α) (n : α) : Except (Refusal α) (List α) := do
  let seen ← d.reachOf n
  let sorted ← d.sort
  pure (sorted.filter (· ∈ seen))

/-- What depends on a node, directly or not, nearest dependents first. -/
def allDependentsOf (d : Dag α) (n : α) : Except (Refusal α) (List α) :=
  d.transpose.allDependenciesOf n

/-! ## Graphs that can be built -/

/-- The graph comes out of some operations. -/
inductive Built : Dag α → Prop where
  | empty : Built empty
  | ofDependencies {entries : List (α × List α)} {d : Dag α}
      (built : Dag.ofDependencies entries = .ok d) : Built d
  | addNode {d e : Dag α} {n : α} (before : Built d) (built : d.addNode n = .ok e) : Built e
  | ensureNode {d : Dag α} (n : α) (before : Built d) : Built (d.ensureNode n)
  | removeNode {d e : Dag α} {n : α} (before : Built d) (built : d.removeNode n = .ok e) : Built e
  | discardNode {d : Dag α} (n : α) (before : Built d) : Built (d.discardNode n)
  | addEdge {d e : Dag α} {source target : α} (before : Built d)
      (built : d.addEdge source target = .ok e) : Built e
  | removeEdge {d e : Dag α} {source target : α} (before : Built d)
      (built : d.removeEdge source target = .ok e) : Built e
  | transpose {d : Dag α} (before : Built d) : Built d.transpose
  | restrict {d e : Dag α} {ns : List α} (before : Built d) (built : d.restrict ns = .ok e) :
      Built e
  | reduce {d : Dag α} (before : Built d) : Built d.reduce

end Rollout.Dag

/-!
# Why a graph operation refuses

* `Dag.Refusal`: the causes, over the nodes themselves.
* `GraphError`: the same as it is reported, over texts.
* `GraphError.kind` and `GraphError.message`: the wording.
-/

namespace Rollout

/-- Why an operation on a dependency graph refuses. -/
inductive Dag.Refusal (α : Type) where
  /-- The node is there already. -/
  | duplicateNode (node : α)
  /-- There is no such node. -/
  | missingNode (node : α)
  /-- `source` does not depend on `target` directly. -/
  | missingEdge (source target : α)
  /-- No order exists; the listed nodes wait for each other or for one that does. -/
  | cycle (unresolved : List α)
  /-- Every node, if there is any, is needed by another one. -/
  | noIndependentNode
  /-- A check of the whole graph found no order. -/
  | unordered (unresolved : List α)
  deriving DecidableEq, Repr

/-- A refused graph operation, as it is reported. -/
inductive GraphError where
  | duplicateNode (node : String)
  | missingNode (node : String)
  | missingEdge (source target : String)
  | cycle (detail : String)
  | invalid (detail : String)
  deriving DecidableEq, Repr, Inhabited

namespace GraphError

/-- The kind of the error, for logs. -/
def kind : GraphError → String
  | duplicateNode _ => "duplicate_node"
  | missingNode _ => "node_not_found"
  | missingEdge _ _ => "edge_not_found"
  | cycle _ => "cycle"
  | invalid _ => "validation"

/-- The text shown for the error. -/
def message : GraphError → String
  | duplicateNode node => "Node already exists: " ++ node
  | missingNode node => "Node not found: " ++ node
  | missingEdge source target => "Edge not found: " ++ source ++ " -> " ++ target
  | cycle detail => "Cycle detected: " ++ detail
  | invalid detail => "Invalid graph: " ++ detail

/-- The part of the text that names the nodes without an order. -/
def unresolvedDetail (nodes : List String) : String :=
  "graph is not acyclic; unresolved nodes: " ++ ", ".intercalate nodes

end GraphError

namespace Dag.Refusal

variable {α : Type}

/-- The report of a refusal, with the nodes in words. -/
def report (text : α → String) : Refusal α → GraphError
  | duplicateNode node => .duplicateNode (text node)
  | missingNode node => .missingNode (text node)
  | missingEdge source target => .missingEdge (text source) (text target)
  | cycle unresolved => .cycle (GraphError.unresolvedDetail (unresolved.map text))
  | noIndependentNode => .invalid "no independent nodes detected"
  | unordered unresolved => .invalid (GraphError.unresolvedDetail (unresolved.map text))

end Dag.Refusal

end Rollout

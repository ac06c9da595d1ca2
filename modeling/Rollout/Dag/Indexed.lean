import Rollout.Dag.Operations

/-!
# Graphs kept as an order beside a map

The nodes stand in a list, and a map binds each of them to what it depends on. The two are edited
one after the other and in place, so an operation that is refused half way could leave them apart.
Where the code takes it for granted that a key is bound, a key that is not is a fault: the result
is `none`, whatever would have come after.

* `Indexed.at?`: what the map binds to a node.
* `Indexed.sort?`, `Indexed.explore?`: the sort and the search, each look-up one that may fault.
* `Edit`, `Indexed.perform`: the operations that change a graph, with their answer and the state
  they leave behind. `Dag.perform` is the same on graphs in one piece.
* `Indexed.Reached`: the states that come out of operations, refused ones included.
-/

namespace Rollout.Dag

/-- Nodes in insertion order beside a map from nodes to what they depend on. -/
structure Indexed (α : Type) where
  /-- The nodes in insertion order. -/
  order : List α
  /-- The bindings of the map. -/
  index : List (α × List α)
  deriving DecidableEq, Repr

/-- The order and the map of a graph in one piece. -/
def indexed {α : Type} (d : Dag α) : Indexed α := ⟨d.nodes, d.entries⟩

namespace Indexed

variable {α : Type}

/-- The members of a list that a test accepts; a fault of the test is one of the whole. -/
def select? (test : α → Option Bool) : List α → Option (List α)
  | [] => some []
  | a :: l => do
    let accepted ← test a
    let rest ← select? test l
    pure (if accepted then a :: rest else rest)

/-- No node and no binding. -/
def empty : Indexed α := ⟨[], []⟩

/-- A node at the end of the order, bound to some dependencies. -/
def push (s : Indexed α) (n : α) (deps : List α) : Indexed α :=
  ⟨s.order ++ [n], s.index ++ [(n, deps)]⟩

variable [DecidableEq α]

/-- What the map binds to `n`. -/
def at? (s : Indexed α) (n : α) : Option (List α) := s.index.lookup n

theorem mem_nodes_of_at? {s : Indexed α} {n : α} {deps : List α} (h : s.at? n = some deps) :
    n ∈ nodes ⟨s.index⟩ := by
  obtain ⟨before, after, hindex, -⟩ := List.lookup_eq_some_iff.1 h
  simp [nodes, hindex]

/-- The map binds something to `n`. -/
def hasKey (s : Indexed α) (n : α) : Bool := (s.at? n).isSome

/-- The state with what is bound to `n`, if anything is, sent through `f`. -/
def update (s : Indexed α) (n : α) (f : List α → List α) : Indexed α :=
  { s with index := s.index.map fun e => if e.1 = n then (e.1, f e.2) else e }

/-! ## Looking at the graph -/

/-- The nodes in insertion order, each with its dependencies. -/
def toDependencies? (s : Indexed α) : Option (List (α × List α)) :=
  s.order.mapM fun n => (s.at? n).map (n, ·)

/-- The nodes that nothing in the map depends on. -/
def independentNodes (s : Indexed α) : List α :=
  s.order.filter fun n => n ∉ s.index.flatMap (·.2)

/-- The nodes without dependencies. -/
def leaves? (s : Indexed α) : Option (List α) :=
  select? (fun n => (s.at? n).map (· = [])) s.order

/-- The direct dependencies of a node. -/
def dependenciesOf (s : Indexed α) (n : α) : Except (Refusal α) (List α) :=
  match s.at? n with
  | some deps => .ok deps
  | none => .error (.missingNode n)

/-- The direct dependents of a node. -/
def dependentsOf? (s : Indexed α) (n : α) : Option (Except (Refusal α) (List α)) :=
  if s.hasKey n then (select? (fun m => (s.at? m).map (n ∈ ·)) s.order).map .ok
  else some (.error (.missingNode n))

/-- The numbers of the two ends of every edge, nodes being numbered in insertion order. -/
def edgeNumbers? (s : Indexed α) : Option (List (Nat × Nat)) := do
  let entries ← s.toDependencies?
  (entries.flatMap fun e => e.2.map (e.1, ·)).mapM fun e => do
    let source ← s.order.zipIdx.lookup e.1
    let target ← s.order.zipIdx.lookup e.2
    pure (source, target)

/-! ## Searching -/

/-- Adds to `seen` every node that is reached from the queue, first come, first served. -/
def explore? (s : Indexed α) (seen queue : List α) : Option (List α) :=
  match queue with
  | [] => some seen
  | n :: rest =>
    if n ∈ seen then s.explore? seen rest
    else
      match _h : s.at? n with
      | some deps => s.explore? (seen ++ [n]) (rest ++ deps)
      | none => none
termination_by ((unseen ⟨s.index⟩ seen).length, queue.length)
decreasing_by
  · exact Prod.Lex.right _ (Nat.lt_succ_self _)
  · next hs =>
    exact Prod.Lex.left _ _ (length_unseen_append_lt (mem_nodes_of_at? _h) hs)

/-- What a node depends on, directly or not, nearest first. -/
def reachOf? (s : Indexed α) (n : α) : Option (Except (Refusal α) (List α)) :=
  match s.at? n with
  | some deps => (s.explore? [] deps).map .ok
  | none => some (.error (.missingNode n))

/-- `target` is reached from the node `source` along one edge or more. -/
def hasPath? (s : Indexed α) (source target : α) : Option (Except (Refusal α) Bool) :=
  (s.reachOf? source).map (·.map (target ∈ ·))

/-! ## Sorting -/

/-- The counts with one more edge to `n`, if `n` is counted. -/
def increment (counts : List (α × Int)) (n : α) : List (α × Int) :=
  counts.map fun e => if e.1 = n then (e.1, e.2 + 1) else e

/-- For each node the number of edges that point to it. -/
def counts? (s : Indexed α) : Option (List (α × Int)) :=
  s.order.foldlM (fun counts n => (s.at? n).map (·.foldl increment counts)) (s.order.map (·, 0))

/-- Takes nodes off the queue of a sort until it is empty. -/
def drain? (s : Indexed α) (t : Sorting α) : Option (Sorting α) :=
  match _h : t.queue with
  | [] => some t
  | n :: rest =>
    match s.at? n with
    | some deps =>
      s.drain? (deps.foldl Sorting.release { t with queue := rest, sorted := t.sorted ++ [n] })
    | none => none
termination_by t.pending
decreasing_by
  refine Nat.lt_of_le_of_lt (Sorting.pending_foldl_release _ _) ?_
  simp [Sorting.pending, _h]

/-- The nodes, each before what it depends on, or those that are still pointed to. -/
def sort? (s : Indexed α) : Option (Except (Refusal α) (List α)) := do
  let counts ← s.counts?
  let queue ← select? (fun n => (counts.lookup n).map (· = 0)) s.order
  let t ← s.drain? { counts, queue, sorted := [] }
  if t.sorted.length = s.order.length then pure (.ok t.sorted)
  else
    let unresolved ← select? (fun n => (t.count? n).map (0 < ·)) s.order
    pure (.error (.cycle unresolved))

/-- Checks that some node is independent and that an order exists. -/
def validate? (s : Indexed α) : Option (Except (Refusal α) Unit) :=
  if s.independentNodes = [] then some (.error .noIndependentNode)
  else do
    match ← s.sort? with
    | .ok _ => pure (.ok ())
    | .error (.cycle unresolved) => pure (.error (.unordered unresolved))
    | .error e => pure (.error e)

/-! ## Edits in place -/

/-- A new node, unless it is there. -/
def addNode (s : Indexed α) (n : α) : Except (Refusal α) Unit × Indexed α :=
  if s.hasKey n then (.error (.duplicateNode n), s) else (.ok (), s.push n [])

/-- The node `n`, whether or not it is new. -/
def ensureNode (s : Indexed α) (n : α) : Indexed α := if s.hasKey n then s else s.push n []

/-- The node `n` taken away, with the edges that point to it. -/
def removeNode (s : Indexed α) (n : α) : Except (Refusal α) Unit × Indexed α :=
  match s.at? n with
  | none => (.error (.missingNode n), s)
  | some _ =>
    let index := s.index.filter (·.1 ≠ n)
    (.ok (), ⟨s.order.filter (· ≠ n), index.map fun e => (e.1, e.2.filter (· ≠ n))⟩)

/-- The node `n` taken away, whether or not it was there. -/
def discardNode (s : Indexed α) (n : α) : Indexed α := (s.removeNode n).2

/-- A new edge: it is tried on a copy, which replaces the state if it can be sorted. -/
def addEdge? (s : Indexed α) (source target : α) :
    Option (Except (Refusal α) Unit × Indexed α) :=
  if ¬ s.hasKey source then some (.error (.missingNode source), s)
  else if ¬ s.hasKey target then some (.error (.missingNode target), s)
  else do
    let deps ← s.at? source
    if target ∈ deps then pure (.ok (), s)
    else
      let candidate := s.update source (· ++ [target])
      match ← candidate.sort? with
      | .ok _ => pure (.ok (), candidate)
      | .error e => pure (.error e, s)

/-- The edge taken away. That it was there is told from the length of the list afterwards. -/
def removeEdge (s : Indexed α) (source target : α) : Except (Refusal α) Unit × Indexed α :=
  match s.at? source with
  | none => (.error (.missingEdge source target), s)
  | some deps =>
    let edited := s.update source (·.filter (· ≠ target))
    if (deps.filter (· ≠ target)).length = deps.length then
      (.error (.missingEdge source target), edited)
    else (.ok (), edited)

/-! ## Derived graphs -/

/-- Every edge turned round, one by one. -/
def transpose? (s : Indexed α) : Option (Indexed α) :=
  s.order.foldlM
    (fun t n => (s.at? n).map fun deps => deps.foldl (fun t m => t.update m (· ++ [n])) t)
    ⟨s.order, s.order.map (·, [])⟩

/-- The kept nodes and those of a list with all they depend on, or the first that is no node. -/
def closure? (s : Indexed α) (kept : List α) : List α → Option (Except (Refusal α) (List α))
  | [] => some (.ok kept)
  | n :: ns => do
    match ← s.reachOf? n with
    | .ok reached => s.closure? (kept ++ reached ++ [n]) ns
    | .error e => pure (.error e)

/-- Some nodes and all they depend on, collected one by one. -/
def restrict? (s : Indexed α) (ns : List α) : Option (Except (Refusal α) (Indexed α)) := do
  match ← s.closure? [] ns with
  | .ok kept =>
    let filtered ← (s.order.filter (· ∈ kept)).foldlM
      (fun t n => (s.at? n).map fun deps => t.push n (deps.filter (· ∈ kept))) empty
    pure (.ok filtered)
  | .error e => pure (.error e)

/-- Each node with what it reaches. -/
def closures? (s : Indexed α) : Option (List (α × List α)) :=
  s.order.mapM fun n => (s.reachOf? n).map fun reached => (n, reached.toOption.getD [])

/-- The edge to `target` is implied: another of the dependencies reaches it. -/
def isImplied? (closures : List (α × List α)) (deps : List α) (target : α) : Option Bool :=
  deps.anyM fun other =>
    if other = target then some false else (closures.lookup other).map (target ∈ ·)

/-- The implied edges dropped, node by node. -/
def reduce? (s : Indexed α) : Option (Indexed α) := do
  let closures ← s.closures?
  s.order.foldlM
    (fun t n => do
      let deps ← s.at? n
      let redundant ← select? (isImplied? closures deps) deps
      pure (t.update n (·.filter (· ∉ redundant))))
    s

/-- What a node depends on, directly or not, each before its own dependencies. -/
def allDependenciesOf? (s : Indexed α) (n : α) : Option (Except (Refusal α) (List α)) := do
  match ← s.reachOf? n with
  | .ok seen => (← s.sort?).map (·.filter (· ∈ seen))
  | .error e => pure (.error e)

/-- What depends on a node, directly or not, nearest dependents first. -/
def allDependentsOf? (s : Indexed α) (n : α) : Option (Except (Refusal α) (List α)) := do
  (← s.transpose?).allDependenciesOf? n

end Indexed

/-! ## Sequences of operations -/

/-- An operation that changes a graph, or that puts another one in its place. -/
inductive Edit (α : Type) where
  | addNode (n : α)
  | ensureNode (n : α)
  | removeNode (n : α)
  | discardNode (n : α)
  | addEdge (source target : α)
  | removeEdge (source target : α)
  | transpose
  | restrict (ns : List α)
  | reduce
  deriving DecidableEq, Repr

/-- The edits that make the graph of a list of nodes with their dependencies. -/
def Edit.ofDependencies {α : Type} (entries : List (α × List α)) : List (Edit α) :=
  (entries.map fun e => .addNode e.1) ++ entries.flatMap fun e => e.2.map fun m => .addEdge e.1 m

variable {α : Type} [DecidableEq α]

/-- The graph after an edit. -/
def perform (d : Dag α) : Edit α → Except (Refusal α) (Dag α)
  | .addNode n => d.addNode n
  | .ensureNode n => .ok (d.ensureNode n)
  | .removeNode n => d.removeNode n
  | .discardNode n => .ok (d.discardNode n)
  | .addEdge source target => d.addEdge source target
  | .removeEdge source target => d.removeEdge source target
  | .transpose => .ok d.transpose
  | .restrict ns => d.restrict ns
  | .reduce => .ok d.reduce

/-- An edit done on the order and the map of a graph: its answer, and those of the graph after it.
A refused edit leaves what was there. -/
def answer (d : Dag α) : Except (Refusal α) (Dag α) → Except (Refusal α) Unit × Indexed α
  | .ok e => (.ok (), e.indexed)
  | .error r => (.error r, d.indexed)

namespace Indexed

/-- What an edit answers, and the state after it. -/
def perform (s : Indexed α) : Edit α → Option (Except (Refusal α) Unit × Indexed α)
  | .addNode n => some (s.addNode n)
  | .ensureNode n => some (.ok (), s.ensureNode n)
  | .removeNode n => some (s.removeNode n)
  | .discardNode n => some (.ok (), s.discardNode n)
  | .addEdge source target => s.addEdge? source target
  | .removeEdge source target => some (s.removeEdge source target)
  | .transpose => s.transpose?.map (.ok (), ·)
  | .restrict ns =>
    (s.restrict? ns).map fun
      | .ok t => (.ok (), t)
      | .error e => (.error e, s)
  | .reduce => s.reduce?.map (.ok (), ·)

/-- The state after some edits, up to the first that is refused. -/
def performAll? (s : Indexed α) : List (Edit α) → Option (Except (Refusal α) (Indexed α))
  | [] => some (.ok s)
  | edit :: edits => do
    match ← s.perform edit with
    | (.ok (), t) => t.performAll? edits
    | (.error e, _) => pure (.error e)

/-- The graph of a list of nodes with their dependencies. -/
def ofDependencies? (entries : List (α × List α)) : Option (Except (Refusal α) (Indexed α)) :=
  empty.performAll? (Edit.ofDependencies entries)

/-- The state comes out of some operations, whether they were refused or not. -/
inductive Reached : Indexed α → Prop where
  | empty : Reached empty
  | ofDependencies {entries : List (α × List α)} {s : Indexed α}
      (built : ofDependencies? entries = some (.ok s)) : Reached s
  | edit {s t : Indexed α} {edit : Edit α} {answer : Except (Refusal α) Unit}
      (before : Reached s) (performed : s.perform edit = some (answer, t)) : Reached t

end Indexed

end Rollout.Dag

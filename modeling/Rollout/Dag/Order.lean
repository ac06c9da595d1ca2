import Rollout.Dag.Basic

/-!
# Sorting a graph

Nodes come before what they depend on. The sort counts for each node the edges that still point to
it, queues the nodes nothing points to, and takes them off in the order in which they were queued.

* `Sorting`: the counts, the queue and the nodes sorted so far.
* `Sorting.run`: takes nodes off the queue until it is empty.
* `sort`: the sorted nodes, or the nodes that never got into the queue.
-/

namespace Rollout.Dag

variable {α : Type} [DecidableEq α]

/-- The state of a sort. -/
structure Sorting (α : Type) where
  /-- For each node the edges that point to it from nodes not yet sorted. -/
  counts : List (α × Int)
  /-- Nodes that nothing unsorted points to, oldest first. -/
  queue : List α
  /-- The nodes sorted so far. -/
  sorted : List α

namespace Sorting

/-- The count of `n`; none if `n` is not counted. -/
def count? (s : Sorting α) (n : α) : Option Int := s.counts.lookup n

/-- The counts with one taken off that of `n`. -/
def decrement (n : α) : List (α × Int) → List (α × Int)
  | [] => []
  | (m, c) :: rest => if m = n then (m, c - 1) :: rest else (m, c) :: decrement n rest

/-- One edge to `n` is gone; `n` is queued when it was the last. -/
def release (s : Sorting α) (n : α) : Sorting α :=
  let counts := decrement n s.counts
  { s with
    counts
    queue := if counts.lookup n = some 0 then s.queue ++ [n] else s.queue }

/-- Counts above zero. -/
def waiting (counts : List (α × Int)) : Nat := counts.countP (0 < ·.2)

/-- Nodes that may still come off the queue. -/
def pending (s : Sorting α) : Nat := waiting s.counts + s.queue.length

theorem waiting_decrement (n : α) (counts : List (α × Int)) :
    waiting (decrement n counts) + (if (decrement n counts).lookup n = some 0 then 1 else 0)
      ≤ waiting counts := by
  induction counts with
  | nil => simp [decrement, waiting]
  | cons e rest ih =>
    obtain ⟨m, c⟩ := e
    by_cases h : m = n
    · subst h
      simp only [decrement, if_true, waiting, List.countP_cons, List.lookup_cons, beq_self_eq_true,
        Option.some.injEq, decide_eq_true_eq]
      split <;> split <;> split <;> omega
    · have hb : (n == m) = false := beq_false_of_ne (Ne.symm h)
      simp only [decrement, if_neg h, waiting, List.countP_cons, List.lookup_cons, hb] at ih ⊢
      omega

theorem pending_release (s : Sorting α) (n : α) : (s.release n).pending ≤ s.pending := by
  have h := waiting_decrement n s.counts
  simp only [release, pending]
  split at h <;> rename_i h0 <;> simp only [h0, if_true, if_false, List.length_append,
    List.length_singleton] <;> omega

theorem pending_foldl_release (ns : List α) (s : Sorting α) :
    (ns.foldl release s).pending ≤ s.pending := by
  induction ns generalizing s with
  | nil => exact Nat.le_refl _
  | cons n ns ih => exact Nat.le_trans (ih _) (pending_release s n)

/-- Takes nodes off the queue until it is empty. Each one leaves the queue for good, so the nodes
that may still come off it get fewer. -/
def run (d : Dag α) (s : Sorting α) : Sorting α :=
  match _h : s.queue with
  | [] => s
  | n :: rest =>
    run d ((d.dependencies n).foldl release { s with queue := rest, sorted := s.sorted ++ [n] })
termination_by s.pending
decreasing_by
  refine Nat.lt_of_le_of_lt (pending_foldl_release _ _) ?_
  simp [pending, _h]

end Sorting

/-- The number of edges that point to `n`. -/
def inDegree (d : Dag α) (n : α) : Nat := (d.edges.map (·.2)).count n

/-- The start of a sort: all edges counted, and the nodes without dependents queued. -/
def sorting (d : Dag α) : Sorting α where
  counts := d.nodes.map fun n => (n, (d.inDegree n : Int))
  queue := d.nodes.filter fun n => d.inDegree n = 0
  sorted := []

/-- The nodes, each before what it depends on; ties go to the node queued first. A graph with a
cycle has no such order: the nodes that are still pointed to are named. -/
def sort (d : Dag α) : Except (Refusal α) (List α) :=
  let s := Sorting.run d d.sorting
  if s.sorted.length = d.size then .ok s.sorted
  else .error (.cycle (d.nodes.filter fun n => 0 < (s.count? n).getD 0))

/-- Checks that some node is independent and that an order exists. -/
def validate (d : Dag α) : Except (Refusal α) Unit :=
  if d.independentNodes = [] then .error .noIndependentNode
  else
    match d.sort with
    | .ok _ => .ok ()
    | .error (.cycle unresolved) => .error (.unordered unresolved)
    | .error e => .error e

end Rollout.Dag

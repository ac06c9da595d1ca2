import Rollout.Dag.Basic

/-!
# Reachability

* `explore`: breadth-first search from a queue of nodes. Each node enters the list of seen nodes
  once, so the search ends.
* `reach`: the nodes that a node depends on, directly or not, nearest first.
* `hasPath`: whether one node is reached from another.
-/

namespace Rollout.Dag

variable {α : Type} [DecidableEq α]

/-- The nodes not yet in `seen`: the search ends because seeing a node takes it from them. -/
def unseen (d : Dag α) (seen : List α) : List α := d.nodes.filter (· ∉ seen)

theorem unseen_append (d : Dag α) (seen : List α) (n : α) :
    d.unseen (seen ++ [n]) = (d.unseen seen).filter (· ≠ n) := by
  simp only [unseen, List.filter_filter]
  refine List.filter_congr fun a _ => ?_
  by_cases a = n <;> by_cases a ∈ seen <;> simp [*]

theorem length_unseen_append_lt {d : Dag α} {seen : List α} {n : α} (hn : n ∈ d.nodes)
    (hs : n ∉ seen) : (d.unseen (seen ++ [n])).length < (d.unseen seen).length := by
  rw [unseen_append, List.length_filter_lt_length_iff_exists]
  exact ⟨n, by simp [unseen, hn, hs], by simp⟩

theorem unseen_append_of_not_mem {d : Dag α} {seen : List α} {n : α} (hn : n ∉ d.nodes) :
    d.unseen (seen ++ [n]) = d.unseen seen := by
  rw [unseen_append, List.filter_eq_self]
  intro a ha
  have hm : a ∈ d.nodes := (List.mem_filter.1 ha).1
  simpa using fun h : a = n => hn (h ▸ hm)

theorem dependencies_of_not_mem {d : Dag α} {n : α} (hn : n ∉ d.nodes) :
    d.dependencies n = [] := by
  obtain ⟨l⟩ := d
  simp only [nodes, dependencies] at hn ⊢
  induction l with
  | nil => rfl
  | cons e l ih =>
    simp only [List.map_cons, List.mem_cons, not_or] at hn
    rw [List.lookup_cons, beq_false_of_ne hn.1]
    exact ih hn.2

/-- Adds to `seen` every node that is reached from the queue, first come, first served. -/
def explore (d : Dag α) (seen queue : List α) : List α :=
  match queue with
  | [] => seen
  | n :: rest =>
    if n ∈ seen then d.explore seen rest
    else d.explore (seen ++ [n]) (rest ++ d.dependencies n)
termination_by ((d.unseen seen).length, queue.length)
decreasing_by
  · exact Prod.Lex.right _ (Nat.lt_succ_self _)
  · next hs =>
    by_cases hn : n ∈ d.nodes
    · exact Prod.Lex.left _ _ (length_unseen_append_lt hn hs)
    · rw [unseen_append_of_not_mem hn, dependencies_of_not_mem hn]
      exact Prod.Lex.right _ (by simp)

/-- What `n` depends on, directly or not, nearest first. -/
def reach (d : Dag α) (n : α) : List α := d.explore [] (d.dependencies n)

/-- What a node depends on, directly or not, nearest first. -/
def reachOf (d : Dag α) (n : α) : Except (Refusal α) (List α) :=
  if n ∈ d.nodes then .ok (d.reach n) else .error (.missingNode n)

/-- `target` is reached from the node `source` along one edge or more. -/
def hasPath (d : Dag α) (source target : α) : Except (Refusal α) Bool :=
  (d.reachOf source).map (target ∈ ·)

end Rollout.Dag

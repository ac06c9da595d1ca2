import Rollout.Proofs.Dag.Path

/-!
# The search for reached nodes

The search keeps two lists: the nodes it has seen and a queue of nodes to look at.

* `explore_closed` and `path_of_mem_explore`: it finds what was seen, what was queued and what is
  reached from the queue, and nothing else.
* `mem_reach_iff`: `reach` finds exactly the nodes at the ends of paths.
* `hasPath_congr`: so what `hasPath` answers is told by paths.
-/

namespace Rollout.Dag

variable {α : Type} [DecidableEq α]

theorem mem_explore_of_mem_seen {d : Dag α} {seen queue : List α} {n : α} (h : n ∈ seen) :
    n ∈ d.explore seen queue := by
  fun_induction explore d seen queue with
  | case1 => exact h
  | case2 seen m rest hm ih => exact ih h
  | case3 seen m rest hm ih => exact ih (List.mem_append_left _ h)

theorem mem_explore_of_mem_queue {d : Dag α} {seen queue : List α} {n : α} (h : n ∈ queue) :
    n ∈ d.explore seen queue := by
  fun_induction explore d seen queue with
  | case1 => exact absurd h List.not_mem_nil
  | case2 seen m rest hm ih =>
    rcases List.mem_cons.1 h with rfl | h
    · exact mem_explore_of_mem_seen hm
    · exact ih h
  | case3 seen m rest hm ih =>
    rcases List.mem_cons.1 h with rfl | h
    · exact mem_explore_of_mem_seen (by simp)
    · exact ih (List.mem_append_left _ h)

/-- While the search goes on, what a seen node depends on has been seen or queued. In the end the
queue is empty, so the seen nodes are closed under dependencies. -/
theorem explore_closed {d : Dag α} {seen queue : List α}
    (hs : ∀ x ∈ seen, ∀ y, d.Edge x y → y ∈ seen ∨ y ∈ queue) :
    ∀ x ∈ d.explore seen queue, ∀ y, d.Edge x y → y ∈ d.explore seen queue := by
  fun_induction explore d seen queue with
  | case1 seen =>
    intro x hx y hxy
    exact (hs x hx y hxy).resolve_right List.not_mem_nil
  | case2 seen m rest hm ih =>
    refine ih fun x hx y hxy => ?_
    rcases hs x hx y hxy with hy | hy
    · exact .inl hy
    · rcases List.mem_cons.1 hy with rfl | hy
      · exact .inl hm
      · exact .inr hy
  | case3 seen m rest hm ih =>
    refine ih fun x hx y hxy => ?_
    rcases List.mem_append.1 hx with hx | hx
    · rcases hs x hx y hxy with hy | hy
      · exact .inl (List.mem_append_left _ hy)
      · rcases List.mem_cons.1 hy with rfl | hy
        · exact .inl (by simp)
        · exact .inr (List.mem_append_left _ hy)
    · obtain rfl : x = m := List.mem_singleton.1 hx
      exact .inr (List.mem_append_right _ hxy)

theorem path_of_mem_explore {d : Dag α} {seen queue : List α} {n : α}
    (h : n ∈ d.explore seen queue) : n ∈ seen ∨ ∃ q ∈ queue, q = n ∨ d.Path q n := by
  fun_induction explore d seen queue with
  | case1 => exact .inl h
  | case2 seen m rest hm ih =>
    rcases ih h with h | ⟨q, hq, hn⟩
    · exact .inl h
    · exact .inr ⟨q, List.mem_cons_of_mem _ hq, hn⟩
  | case3 seen m rest hm ih =>
    rcases ih h with h | ⟨q, hq, hn⟩
    · rcases List.mem_append.1 h with h | h
      · exact .inl h
      · exact .inr ⟨m, List.mem_cons_self, .inl (List.mem_singleton.1 h).symm⟩
    · rcases List.mem_append.1 hq with hq | hq
      · exact .inr ⟨q, List.mem_cons_of_mem _ hq, hn⟩
      · -- `q` came into the queue as a dependency of `m`.
        refine .inr ⟨m, List.mem_cons_self, .inr ?_⟩
        rcases hn with rfl | hn
        · exact .edge hq
        · exact .cons hq hn

/-- The search from a node finds exactly what the node depends on, directly or not. -/
theorem mem_reach_iff {d : Dag α} {a b : α} : b ∈ d.reach a ↔ d.Path a b := by
  constructor
  · intro h
    rcases path_of_mem_explore h with h | ⟨q, hq, rfl | hq'⟩
    · exact absurd h List.not_mem_nil
    · exact .edge hq
    · exact .cons hq hq'
  · intro h
    refine h.induction_closed (P := fun n => n ∈ d.reach a) (fun x y hx hxy => ?_) fun x hx => ?_
    · exact explore_closed (fun x hx => absurd hx List.not_mem_nil) x hx y hxy
    · exact mem_explore_of_mem_queue hx

theorem reachOf_eq_ok {d : Dag α} {n : α} (hn : n ∈ d.nodes) : d.reachOf n = .ok (d.reach n) :=
  if_pos hn

theorem reachOf_of_not_mem {d : Dag α} {n : α} (hn : n ∉ d.nodes) :
    d.reachOf n = .error (.missingNode n) :=
  if_neg hn

/-- Whether there is a path is answered for nodes in the same way in two graphs, if there is one in
both or in neither. -/
theorem hasPath_congr {d e : Dag α} {a b x y : α} (ha : a ∈ d.nodes) (hx : x ∈ e.nodes)
    (h : d.Path a b ↔ e.Path x y) : d.hasPath a b = e.hasPath x y := by
  have hmem : b ∈ d.reach a ↔ y ∈ e.reach x := by rw [mem_reach_iff, mem_reach_iff, h]
  rw [hasPath, hasPath, reachOf_eq_ok ha, reachOf_eq_ok hx]
  exact congrArg Except.ok (decide_eq_decide.2 hmem)

theorem hasPath_eq_true_iff {d : Dag α} {a b : α} :
    d.hasPath a b = .ok true ↔ a ∈ d.nodes ∧ d.Path a b := by
  rw [hasPath, ← mem_reach_iff]
  by_cases ha : a ∈ d.nodes
  · simp [reachOf_eq_ok ha, Except.map, ha]
  · simp [reachOf_of_not_mem ha, Except.map, ha]

theorem hasPath_of_not_mem {d : Dag α} {a : α} (ha : a ∉ d.nodes) (b : α) :
    d.hasPath a b = .error (.missingNode a) := by
  rw [hasPath, reachOf_of_not_mem ha]
  rfl

end Rollout.Dag

import Rollout.Proofs.Dag.Reach
import Rollout.Proofs.Data.Except

/-!
# Graphs narrowed to some nodes and what they need

* `closure_eq`: which lists are refused, and what is kept for the others. `closure_eq_ok`: the same
  by paths.
* `edge_keep_iff`, `path_keep_iff`: a node that is kept is kept with all that it depends on.
-/

namespace Rollout.Dag

variable {α : Type} [DecidableEq α]

/-- The closure of a list is refused for the first name that is no node. Otherwise it has each name
of the list after all that is reached from it. -/
theorem closure_eq (d : Dag α) (ns : List α) :
    d.closure ns =
      match ns.find? (· ∉ d.nodes) with
      | some n => .error (.missingNode n)
      | none => .ok (ns.flatMap fun n => d.reach n ++ [n]) := by
  have key : ∀ (ns acc : List α),
      ns.foldlM (fun kept n => (d.reachOf n).map (kept ++ · ++ [n])) acc =
        match ns.find? (· ∉ d.nodes) with
        | some n => .error (.missingNode n)
        | none => .ok (acc ++ ns.flatMap fun n => d.reach n ++ [n]) := by
    intro ns
    induction ns with
    | nil => simp [pure, Except.pure]
    | cons n ns ih =>
      intro acc
      rw [List.foldlM_cons]
      by_cases hn : n ∈ d.nodes
      · rw [reachOf_eq_ok hn, List.find?_cons_of_neg (by simpa using hn), List.flatMap_cons,
          ← List.append_assoc, ← List.append_assoc]
        exact ih (acc ++ d.reach n ++ [n])
      · rw [reachOf_of_not_mem hn, List.find?_cons_of_pos (by simpa using hn)]
        rfl
  exact key ns []

theorem closure_eq_ok {d : Dag α} {ns kept : List α} (h : d.closure ns = .ok kept) :
    (∀ n ∈ ns, n ∈ d.nodes) ∧ ∀ m, m ∈ kept ↔ ∃ n ∈ ns, n = m ∨ d.Path n m := by
  rw [closure_eq] at h
  cases hfind : ns.find? (· ∉ d.nodes) with
  | some n =>
    rw [hfind] at h
    cases h
  | none =>
    rw [hfind] at h
    cases h
    refine ⟨fun n hn => by simpa using List.find?_eq_none.1 hfind n hn, fun m => ?_⟩
    simp only [List.mem_flatMap, List.mem_append, mem_reach_iff, List.mem_singleton,
      eq_comm (a := m), or_comm]

/-- A list of kept nodes that are kept with all that they need. -/
def Keeps (d : Dag α) (kept : List α) : Prop := ∀ n ∈ kept, ∀ m, d.Edge n m → m ∈ kept

theorem keeps_of_closure {d : Dag α} {ns kept : List α} (h : d.closure ns = .ok kept) :
    d.Keeps kept := by
  intro n hn m hm
  obtain ⟨-, hmem⟩ := closure_eq_ok h
  obtain ⟨k, hk, hkn⟩ := (hmem n).1 hn
  refine (hmem m).2 ⟨k, hk, .inr ?_⟩
  rcases hkn with rfl | hkn
  · exact .edge hm
  · exact hkn.snoc hm

theorem edge_keep_iff {d : Dag α} {kept : List α} (hk : d.Keeps kept) {a b : α} :
    (d.keep kept).Edge a b ↔ a ∈ kept ∧ d.Edge a b := by
  rw [Edge, dependencies_keep]
  by_cases ha : a ∈ kept
  · rw [if_pos ha, List.mem_filter, decide_eq_true_eq]
    exact ⟨fun h => ⟨ha, h.1⟩, fun h => ⟨h.2, hk a ha b h.2⟩⟩
  · simp [ha]

theorem path_keep_iff {d : Dag α} {kept : List α} (hk : d.Keeps kept) {a b : α} :
    (d.keep kept).Path a b ↔ a ∈ kept ∧ d.Path a b := by
  constructor
  · intro h
    refine ⟨?_, h.mono fun _ _ hxy => ((edge_keep_iff hk).1 hxy).2⟩
    obtain ⟨c, first, -⟩ := h.exists_first
    exact ((edge_keep_iff hk).1 first).1
  · rintro ⟨ha, h⟩
    induction h with
    | edge first => exact .edge ((edge_keep_iff hk).2 ⟨ha, first⟩)
    | cons first _ ih => exact .cons ((edge_keep_iff hk).2 ⟨ha, first⟩) (ih (hk _ ha _ first))

theorem mem_nodes_keep_iff {d : Dag α} {kept : List α} {n : α} :
    n ∈ (d.keep kept).nodes ↔ n ∈ d.nodes ∧ n ∈ kept := by
  rw [nodes_keep, List.mem_filter, decide_eq_true_eq]

theorem restrict_eq_ok {d e : Dag α} {ns : List α} (h : d.restrict ns = .ok e) :
    ∃ kept, d.closure ns = .ok kept ∧ e = d.keep kept := by
  rw [restrict_eq, Except.map_eq_ok_iff] at h
  obtain ⟨kept, hkept, rfl⟩ := h
  exact ⟨kept, hkept, rfl⟩

end Rollout.Dag

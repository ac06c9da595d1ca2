import Rollout.Proofs.Dag.Order

/-!
# What a sort counts on its way

Every moment of a sort, also those in the middle of a turn: a node has come off the queue, and some
of its dependencies have been released while others wait. Until a dependency is released, its count
is one more than the number of its dependents that are still to be sorted, so there is always
something to take off.

* `Sorting.Passes`: the moments of a sort.
* `Sorting.Passes.run_eq`, `Sorting.passes_run`: they lie on the way of the sort, and so does its
  end.
* `Sorting.Placed`: a moment lies between two turns, where the invariant of the sort holds, or in
  the middle of one.
* `Sorting.Passes.counted`: what is counted at each moment. `Sorting.Passes.nonneg`,
  `Sorting.Passes.positive`: no count ever falls below zero.
-/

namespace Rollout.Dag.Sorting

variable {α : Type} [DecidableEq α]

/-- The sort comes to the state `s`, with the nodes `waiting` still to be released in this turn. -/
inductive Passes (d : Dag α) : Sorting α → List α → Prop where
  | start : Passes d d.sorting []
  /-- The first node leaves the queue. -/
  | take {s : Sorting α} {n : α} {rest : List α} (before : Passes d s [])
      (first : s.queue = n :: rest) :
      Passes d { s with queue := rest, sorted := s.sorted ++ [n] } (d.dependencies n)
  /-- The next of its dependencies is released. -/
  | release {s : Sorting α} {m : α} {waiting : List α} (before : Passes d s (m :: waiting)) :
      Passes d (s.release m) waiting

/-- The state stands between two turns, or in the turn of a node some of whose dependencies have
been released. -/
def Placed (d : Dag α) (s : Sorting α) (waiting : List α) : Prop :=
  waiting = [] ∧ Sound d s ∨
    ∃ t n rest released, Sound d t ∧ t.queue = n :: rest ∧
      d.dependencies n = released ++ waiting ∧
      s = released.foldl release { t with queue := rest, sorted := t.sorted ++ [n] }

/-- A turn leaves the invariant of the sort as it found it. -/
theorem Placed.sound {d : Dag α} {s : Sorting α} (h : Placed d s []) (hd : d.Simple) :
    Sound d s := by
  rcases h with ⟨-, hs⟩ | ⟨t, n, rest, released, ht, hqueue, hdeps, rfl⟩
  · exact hs
  · rw [List.append_nil] at hdeps
    rw [← hdeps]
    exact ht.next hqueue hd

namespace Passes

variable {d : Dag α} {s : Sorting α} {waiting : List α}

/-- At each moment the sort goes on to the end that it has. -/
theorem run_eq (h : Passes d s waiting) :
    run d (waiting.foldl Sorting.release s) = run d d.sorting := by
  induction h with
  | start => rfl
  | @take s n rest before first ih =>
    rw [← ih, List.foldl_nil]
    conv => rhs; rw [run]
    split
    · next hempty => cases hempty.symm.trans first
    · next hcons =>
      obtain ⟨rfl, rfl⟩ := List.cons.inj (hcons.symm.trans first)
      rfl
  | release before ih => exact ih

/-- A turn is taken to its end. -/
theorem foldl_release (h : Passes d s waiting) : Passes d (waiting.foldl Sorting.release s) [] := by
  induction waiting generalizing s with
  | nil => exact h
  | cons m waiting ih => exact ih h.release

/-- Every moment stands between two turns or in one. -/
theorem placed (hd : d.Simple) (h : Passes d s waiting) : Placed d s waiting := by
  induction h with
  | start => exact .inl ⟨rfl, sound_sorting hd⟩
  | @take s n rest before first ih => exact .inr ⟨s, n, rest, [], ih.sound hd, first, rfl, rfl⟩
  | @release s m waiting before ih =>
    rcases ih with ⟨hnil, -⟩ | ⟨t, n, rest, released, ht, hqueue, hdeps, rfl⟩
    · cases hnil
    · refine .inr ⟨t, n, rest, released ++ [m], ht, hqueue, ?_, ?_⟩
      · rw [hdeps, List.append_assoc, List.singleton_append]
      · rw [List.foldl_append, List.foldl_cons, List.foldl_nil]

/-- The count of a node is the number of its dependents that are not sorted yet, and one more while
it waits to be released. -/
theorem counted (hd : d.Simple) (h : Passes d s waiting) {m : α} (hm : m ∈ d.nodes) :
    s.count? m = some (left d s.sorted m + waiting.count m : Int) := by
  rcases h.placed hd with ⟨rfl, hs⟩ | ⟨t, n, rest, released, ht, hqueue, hdeps, rfl⟩
  · rw [hs.counted m hm, List.count_nil]
    simp
  · have hnodup := hd.nodup_dependencies n
    have hedge : d.Edge n m ↔ m ∈ released ∨ m ∈ waiting := by
      rw [Edge, hdeps, List.mem_append]
    have hleft := left_snoc hd (ht.head_not_mem hqueue) m
    rw [hdeps] at hnodup
    obtain ⟨hreleased, hwaiting, hdisjoint⟩ := List.nodup_append'.1 hnodup
    obtain ⟨hsorted, -, hcount⟩ := Sorting.foldl_release released hreleased
      { t with queue := rest, sorted := t.sorted ++ [n] }
    have ht : t.count? m = some (left d t.sorted m : Int) := ht.counted m hm
    rw [hcount, hsorted]
    simp only [count?] at ht ⊢
    rw [ht]
    by_cases hr : m ∈ released
    · have hw : m ∉ waiting := fun hw => hdisjoint hr hw
      rw [if_pos (hedge.2 (.inl hr))] at hleft
      rw [if_pos hr, List.count_eq_zero_of_not_mem hw, Option.map_some, Option.some.injEq]
      omega
    · rw [if_neg hr, Option.some.injEq]
      by_cases hw : m ∈ waiting
      · rw [if_pos (hedge.2 (.inr hw))] at hleft
        rw [List.count_eq_one_of_mem hwaiting hw]
        omega
      · rw [if_neg fun h => (hedge.1 h).elim hr hw] at hleft
        rw [List.count_eq_zero_of_not_mem hw]
        omega

/-- Only nodes are counted. -/
theorem mem_nodes_of_count? (h : Passes d s waiting) {m : α} {c : Int} (hc : s.count? m = some c) :
    m ∈ d.nodes := by
  induction h generalizing c with
  | start =>
    have hmem := mem_of_lookup_eq_some (show d.sorting.counts.lookup m = some c from hc)
    obtain ⟨n, hn, he⟩ := List.mem_map.1 hmem
    cases he
    exact hn
  | take _ _ ih => exact ih hc
  | release _ ih =>
    rw [count?_release] at hc
    split at hc
    · obtain ⟨c', hc', -⟩ := Option.map_eq_some_iff.1 hc
      exact ih hc'
    · exact ih hc

theorem nonneg (hd : d.Simple) (h : Passes d s waiting) {m : α} {c : Int}
    (hc : s.count? m = some c) : 0 ≤ c := by
  rw [h.counted hd (h.mem_nodes_of_count? hc)] at hc
  cases hc
  omega

/-- What waits to be released are nodes. -/
theorem mem_nodes_of_mem_waiting (hd : d.Simple) (h : Passes d s waiting) {m : α}
    (hm : m ∈ waiting) : m ∈ d.nodes := by
  rcases h.placed hd with ⟨rfl, -⟩ | ⟨_, n, _, released, -, -, hdeps, -⟩
  · exact absurd hm List.not_mem_nil
  · refine hd.closed n m ?_
    rw [Edge, hdeps]
    exact List.mem_append_right _ hm

/-- What waits to be released has a count to take one off. -/
theorem positive (hd : d.Simple) (h : Passes d s waiting) {m : α} (hm : m ∈ waiting) :
    ∃ c, s.count? m = some c ∧ 0 < c := by
  have hcount : 0 < waiting.count m := List.count_pos_iff.2 hm
  exact ⟨_, h.counted hd (h.mem_nodes_of_mem_waiting hd hm), by omega⟩

end Passes

/-- The end of a sort is one of its moments. -/
theorem passes_run {d : Dag α} {s : Sorting α} (h : Passes d s []) : Passes d (run d s) [] := by
  fun_induction run d s with
  | case1 s hq => exact h
  | case2 s n rest hq ih => exact ih (h.take hq).foldl_release

end Rollout.Dag.Sorting

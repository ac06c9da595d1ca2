import Rollout.Proofs.Dag.Transpose

/-!
# What a sort finds

The invariant of a sort says which nodes are off the queue or in it: those all of whose dependents
have been sorted. The counts say for every node how many dependents are left.

* `Sorting.foldl_release_turn`: what a turn does, in which one node comes off the queue.
* `Sorting.Sound`: the invariant. `Sorting.Sound.next`: one node off the queue keeps it.
* `WellFormed.exists_sort`: a graph without cycles has an order.
* `Simple.acyclic_of_sort`: a graph with an order has no cycle.
* `Simple.sort_perm` and `Simple.idxOf_lt_of_path`: the order has each node once, and each before
  all that it depends on.
-/

namespace Rollout.Dag

variable {α : Type} [DecidableEq α]

/-- A list in which every member comes after all it needs is still such a list with one more member
at its end, if all that this one needs is there. -/
theorem idxOf_lt_snoc {l : List α} {n : α} (hn : n ∉ l) {needs : α → α → Prop}
    (hold : ∀ x ∈ l, ∀ y, needs x y → l.idxOf y < l.idxOf x)
    (hmem : ∀ x ∈ l ++ [n], ∀ y, needs x y → y ∈ l) {x y : α} (hx : x ∈ l ++ [n])
    (h : needs x y) : (l ++ [n]).idxOf y < (l ++ [n]).idxOf x := by
  have hy := hmem x hx y h
  rw [List.idxOf_append_of_mem hy]
  rcases List.mem_append.1 hx with hx | hx
  · rw [List.idxOf_append_of_mem hx]
    exact hold x hx y h
  · rw [List.mem_singleton.1 hx, List.idxOf_append_of_notMem hn]
    exact Nat.lt_of_lt_of_le (List.idxOf_lt_length_of_mem hy) (Nat.le_add_right _ _)

namespace Sorting

/-! ## Releasing the dependencies of a node -/

theorem lookup_decrement (n m : α) (counts : List (α × Int)) :
    (decrement n counts).lookup m =
      if m = n then (counts.lookup m).map (· - 1) else counts.lookup m := by
  induction counts with
  | nil => simp [decrement]
  | cons e rest ih =>
    obtain ⟨k, c⟩ := e
    by_cases hk : k = n
    · subst hk
      by_cases hm : m = k
      · simp [decrement, hm]
      · simp [decrement, hm, lookup_cons_of_ne hm]
    · by_cases hm : m = k
      · subst hm
        simp [decrement, hk]
      · simp only [decrement, if_neg hk, lookup_cons_of_ne hm]
        exact ih

theorem count?_release (s : Sorting α) (n m : α) :
    (s.release n).count? m = if m = n then (s.count? m).map (· - 1) else s.count? m :=
  lookup_decrement n m s.counts

theorem queue_release (s : Sorting α) (n : α) :
    (s.release n).queue = if s.count? n = some 1 then s.queue ++ [n] else s.queue := by
  have h : (decrement n s.counts).lookup n = some 0 ↔ s.count? n = some 1 := by
    rw [lookup_decrement, if_pos rfl, count?]
    cases s.counts.lookup n with
    | none => simp
    | some c => simp only [Option.map_some, Option.some.injEq]; omega
  simp only [release, h]

theorem foldl_release (ns : List α) (hns : ns.Nodup) (s : Sorting α) :
    (ns.foldl release s).sorted = s.sorted ∧
      (ns.foldl release s).queue = s.queue ++ ns.filter (s.count? · = some 1) ∧
      ∀ m, (ns.foldl release s).count? m =
        if m ∈ ns then (s.count? m).map (· - 1) else s.count? m := by
  induction ns generalizing s with
  | nil => simp
  | cons n ns ih =>
    obtain ⟨hn, hns⟩ := List.nodup_cons.1 hns
    obtain ⟨hsorted, hqueue, hcount⟩ := ih hns (s.release n)
    refine ⟨hsorted, ?_, fun m => ?_⟩
    · -- The other nodes of the list have the counts they had before `n` was released.
      have hrest : ns.filter ((s.release n).count? · = some 1) =
          ns.filter (s.count? · = some 1) := by
        refine List.filter_congr fun m hm => ?_
        have hmn : m ≠ n := fun h => hn (h ▸ hm)
        rw [count?_release, if_neg hmn]
      rw [List.foldl_cons, hqueue, hrest, queue_release, List.filter_cons]
      by_cases h : s.count? n = some 1 <;> simp [h]
    · rw [List.foldl_cons, hcount, count?_release]
      by_cases hm : m = n
      · subst hm
        simp [hn]
      · simp [hm]

/-- A turn sorts the node that comes off the queue. Behind the queue come those of its dependencies
that waited for it alone, and each of its dependencies has one edge less. -/
theorem foldl_release_turn {d : Dag α} (hd : d.Simple) {s : Sorting α} {n : α} {rest : List α}
    (hq : s.queue = n :: rest) {t : Sorting α}
    (ht : t = (d.dependencies n).foldl release
      { s with queue := rest, sorted := s.sorted ++ [n] }) :
    t.sorted = s.sorted ++ [n] ∧
      t.sorted ++ t.queue =
        s.sorted ++ s.queue ++ (d.dependencies n).filter (s.count? · = some 1) ∧
      ∀ m, t.count? m =
        if m ∈ d.dependencies n then (s.count? m).map (· - 1) else s.count? m := by
  subst ht
  obtain ⟨hsorted, hqueue, hcount⟩ := foldl_release (d.dependencies n) (hd.nodup_dependencies n)
    { s with queue := rest, sorted := s.sorted ++ [n] }
  refine ⟨hsorted, ?_, hcount⟩
  rw [hsorted, hqueue, hq, List.append_assoc, List.append_assoc, List.singleton_append,
    List.cons_append]
  rfl

/-! ## The invariant -/

/-- The number of dependents of `n` that have not been sorted. -/
def left (d : Dag α) (sorted : List α) (n : α) : Nat := (d.dependents n).countP (· ∉ sorted)

/-- What is true of a sort whenever a node comes off the queue. -/
structure Sound (d : Dag α) (s : Sorting α) : Prop where
  /-- The counts are the numbers of dependents not yet sorted. -/
  counted : ∀ n ∈ d.nodes, s.count? n = some (left d s.sorted n : Int)
  /-- A node is queued once and sorted once. -/
  nodup : (s.sorted ++ s.queue).Nodup
  /-- Sorted or queued are the nodes all of whose dependents are sorted. -/
  mem_iff : ∀ n, n ∈ s.sorted ++ s.queue ↔ n ∈ d.nodes ∧ ∀ m, d.Edge m n → m ∈ s.sorted
  /-- The dependents of a sorted node come before it. -/
  before : ∀ n ∈ s.sorted, ∀ m, d.Edge m n → s.sorted.idxOf m < s.sorted.idxOf n

theorem left_eq_zero_iff {d : Dag α} {sorted : List α} {n : α} :
    left d sorted n = 0 ↔ ∀ m, d.Edge m n → m ∈ sorted := by
  simp only [left, List.countP_eq_zero, mem_dependents_iff, decide_eq_true_eq, not_not]

/-- A list without repetitions has one member less outside of `sorted` if its member `n` is added
there. -/
theorem countP_not_mem_snoc {sorted l : List α} {n : α} (hn : n ∉ sorted) (hl : l.Nodup) :
    l.countP (· ∉ sorted ++ [n]) + (if n ∈ l then 1 else 0) = l.countP (· ∉ sorted) := by
  induction l with
  | nil => rfl
  | cons k l ih =>
    obtain ⟨hk, hl⟩ := List.nodup_cons.1 hl
    have ih := ih hl
    by_cases hkn : k = n
    · subst hkn
      rw [if_neg hk] at ih
      rw [if_pos List.mem_cons_self, List.countP_cons_of_neg (by simp),
        List.countP_cons_of_pos (by simpa using hn)]
      omega
    · have hmem : n ∈ k :: l ↔ n ∈ l := by
        rw [List.mem_cons]
        exact or_iff_right fun h => hkn h.symm
      by_cases hks : k ∈ sorted
      · rw [List.countP_cons_of_neg (by simp [hks]), List.countP_cons_of_neg (by simp [hks])]
        simpa only [hmem] using ih
      · rw [List.countP_cons_of_pos (by simp [hks, hkn]), List.countP_cons_of_pos (by simp [hks])]
        simp only [hmem]
        omega

/-- Sorting `n` leaves one dependent less to each of its dependencies. -/
theorem left_snoc {d : Dag α} (hd : d.Simple) {sorted : List α} {n : α} (hn : n ∉ sorted)
    (m : α) : left d (sorted ++ [n]) m + (if d.Edge n m then 1 else 0) = left d sorted m := by
  have h := countP_not_mem_snoc hn (hd.nodup_dependents m)
  simp only [mem_dependents_iff] at h
  exact h

theorem sound_sorting {d : Dag α} (hd : d.Simple) : Sound d d.sorting where
  counted n hn := by
    have hleft : left d [] n = d.inDegree n := by
      rw [inDegree_eq hd, left, List.countP_eq_length.2]
      simp
    have hmem : (n, (d.inDegree n : Int)) ∈ d.nodes.map fun m => (m, (d.inDegree m : Int)) :=
      List.mem_map.2 ⟨n, hn, rfl⟩
    have hkeys : ((d.nodes.map fun m => (m, (d.inDegree m : Int))).map (·.1)).Nodup := by
      rw [List.map_map]
      simpa [Function.comp_def] using hd.nodup_nodes
    rw [count?, sorting]
    simp only
    rw [hleft]
    exact (lookup_eq_some_iff_mem hkeys).2 hmem
  nodup := hd.nodup_nodes.filter _
  mem_iff n := by
    have h0 : d.inDegree n = 0 ↔ ∀ m, d.Edge m n → m ∈ ([] : List α) := by
      rw [inDegree_eq hd, List.length_eq_zero_iff, List.eq_nil_iff_forall_not_mem]
      simp only [mem_dependents_iff, List.not_mem_nil, imp_false]
    simp only [sorting, List.nil_append, List.mem_filter, decide_eq_true_eq, h0]
  before n hn := absurd hn List.not_mem_nil

namespace Sound

variable {d : Dag α} {s : Sorting α} {n : α} {rest : List α} (hs : Sound d s)
  (hq : s.queue = n :: rest)
include hs hq

theorem head_not_mem : n ∉ s.sorted := by
  have hnodup := hs.nodup
  rw [hq] at hnodup
  exact fun h => List.disjoint_of_nodup_append hnodup h List.mem_cons_self

theorem head_ready : ∀ m, d.Edge m n → m ∈ s.sorted := by
  refine ((hs.mem_iff n).1 (List.mem_append_right _ ?_)).2
  rw [hq]
  exact List.mem_cons_self

/-- A dependency of a node is neither sorted nor queued while the node is not sorted. -/
theorem dependency_not_mem {m : α} (hm : d.Edge n m) : m ∉ s.sorted ++ s.queue := fun h =>
  hs.head_not_mem hq (((hs.mem_iff m).1 h).2 n hm)

/-- The dependencies with one dependent left are those that wait for the node only. -/
theorem count?_eq_one_iff (hd : d.Simple) {m : α} (hm : d.Edge n m) :
    s.count? m = some 1 ↔ ∀ k, d.Edge k m → k ∈ s.sorted ++ [n] := by
  have hleft := left_snoc hd (hs.head_not_mem hq) m
  rw [if_pos hm] at hleft
  rw [hs.counted m (hd.closed n m hm), ← left_eq_zero_iff, Option.some.injEq]
  omega

/-- One node comes off the queue, and its dependencies are released. -/
theorem next (hd : d.Simple) :
    Sound d ((d.dependencies n).foldl release
      { s with queue := rest, sorted := s.sorted ++ [n] }) := by
  have hn := hs.head_not_mem hq
  obtain ⟨hsorted, hall, hcount⟩ := foldl_release_turn hd hq rfl
  refine ⟨fun m hm => ?_, ?_, fun m => ?_, fun m hm k hk => ?_⟩
  · have hleft := left_snoc hd hn m
    rw [hcount m, hs.counted m hm, hsorted]
    by_cases hnm : d.Edge n m
    · rw [if_pos hnm] at hleft
      rw [if_pos (show m ∈ d.dependencies n from hnm), Option.map_some, Option.some.injEq]
      omega
    · rw [if_neg hnm] at hleft
      rw [if_neg (show m ∉ d.dependencies n from hnm), Option.some.injEq]
      omega
  · rw [hall]
    exact hs.nodup.append ((hd.nodup_dependencies n).filter _) fun m hm hm' =>
      hs.dependency_not_mem hq (List.mem_filter.1 hm').1 hm
  · rw [hall, hsorted, List.mem_append, hs.mem_iff m, List.mem_filter, decide_eq_true_eq]
    constructor
    · rintro (⟨hm, hdeps⟩ | ⟨hm, hone⟩)
      · exact ⟨hm, fun k hk => List.mem_append_left _ (hdeps k hk)⟩
      · exact ⟨hd.closed n m hm, (hs.count?_eq_one_iff hq hd hm).1 hone⟩
    · rintro ⟨hm, hdeps⟩
      by_cases hnm : d.Edge n m
      · exact .inr ⟨hnm, (hs.count?_eq_one_iff hq hd hnm).2 hdeps⟩
      · refine .inl ⟨hm, fun k hk => (List.mem_append.1 (hdeps k hk)).resolve_right fun h => hnm ?_⟩
        rwa [← List.mem_singleton.1 h]
  · rw [hsorted] at hm ⊢
    refine idxOf_lt_snoc hn hs.before (fun x hx y hy => ?_) hm hk
    rcases List.mem_append.1 hx with hx | hx
    · exact ((hs.mem_iff x).1 (List.mem_append_left _ hx)).2 y hy
    · rw [List.mem_singleton.1 hx] at hy
      exact hs.head_ready hq y hy

end Sound

/-- A sort ends with an empty queue, and its invariant holds then. -/
theorem Sound.run {d : Dag α} (hd : d.Simple) {s : Sorting α} (hs : Sound d s) :
    Sound d (s.run d) ∧ (s.run d).queue = [] := by
  fun_induction Sorting.run d s with
  | case1 s hq => exact ⟨hs, hq⟩
  | case2 s n rest hq ih => exact ih (hs.next hq hd)

/-- A finished sort has sorted exactly the nodes all of whose dependents it has sorted. -/
theorem mem_sorted_iff {d : Dag α} (hd : d.Simple) (n : α) :
    n ∈ (run d d.sorting).sorted ↔
      n ∈ d.nodes ∧ ∀ m, d.Edge m n → m ∈ (run d d.sorting).sorted := by
  obtain ⟨hs, hq⟩ := (sound_sorting hd).run hd
  have h := hs.mem_iff n
  rwa [hq, List.append_nil] at h

theorem nodup_sorted {d : Dag α} (hd : d.Simple) : (run d d.sorting).sorted.Nodup := by
  obtain ⟨hs, hq⟩ := (sound_sorting hd).run hd
  have h := hs.nodup
  rwa [hq, List.append_nil] at h

theorem sorted_subset {d : Dag α} (hd : d.Simple) : (run d d.sorting).sorted ⊆ d.nodes :=
  fun n hn => ((mem_sorted_iff hd n).1 hn).1

end Sorting

/-! ## The order -/

theorem sort_eq_ok_iff {d : Dag α} {l : List α} :
    d.sort = .ok l ↔
      (Sorting.run d d.sorting).sorted.length = d.size ∧
        (Sorting.run d d.sorting).sorted = l := by
  rw [sort]
  split <;> simp_all

/-- The order of a graph has each of its nodes once. -/
theorem Simple.sort_perm {d : Dag α} (hd : d.Simple) {l : List α} (h : d.sort = .ok l) :
    l.Perm d.nodes := by
  obtain ⟨hlen, rfl⟩ := sort_eq_ok_iff.1 h
  have hsub := (Sorting.nodup_sorted hd).subperm (Sorting.sorted_subset hd)
  exact hsub.perm_of_length_le (by rw [hlen, length_nodes])

theorem Simple.idxOf_lt_of_edge {d : Dag α} (hd : d.Simple) {l : List α} (h : d.sort = .ok l)
    {a b : α} (hab : d.Edge a b) : l.idxOf a < l.idxOf b := by
  have hb : b ∈ l := (hd.sort_perm h).mem_iff.2 (hd.closed a b hab)
  obtain ⟨-, rfl⟩ := sort_eq_ok_iff.1 h
  exact ((Sorting.sound_sorting hd).run hd).1.before b hb a hab

/-- In the order of a graph a node comes before all that it depends on, directly or not. -/
theorem Simple.idxOf_lt_of_path {d : Dag α} (hd : d.Simple) {l : List α} (h : d.sort = .ok l)
    {a b : α} (hab : d.Path a b) : l.idxOf a < l.idxOf b := by
  induction hab with
  | edge first => exact hd.idxOf_lt_of_edge h first
  | cons first _ ih => exact Nat.lt_trans (hd.idxOf_lt_of_edge h first) ih

/-- A graph that can be sorted has no cycle. -/
theorem Simple.acyclic_of_sort {d : Dag α} (hd : d.Simple) {l : List α} (h : d.sort = .ok l)
    (n : α) : ¬ d.Path n n :=
  fun hn => Nat.lt_irrefl _ (hd.idxOf_lt_of_path h hn)

/-- A graph without cycles can be sorted. -/
theorem WellFormed.exists_sort {d : Dag α} (hd : d.WellFormed) : ∃ l, d.sort = .ok l := by
  have hall : ∀ n, n ∈ d.nodes → n ∈ (Sorting.run d d.sorting).sorted := by
    intro n
    induction n using hd.induction_down with
    | step n ih =>
      intro hn
      exact (Sorting.mem_sorted_iff hd.simple n).2 ⟨hn, fun m hm => ih m hm hm.mem_nodes⟩
  have hperm : (Sorting.run d d.sorting).sorted.Perm d.nodes :=
    (List.perm_ext_iff_of_nodup (Sorting.nodup_sorted hd.simple) hd.nodup_nodes).2 fun n =>
      ⟨fun h => Sorting.sorted_subset hd.simple h, hall n⟩
  exact ⟨_, sort_eq_ok_iff.2 ⟨by rw [hperm.length_eq, length_nodes], rfl⟩⟩

end Rollout.Dag

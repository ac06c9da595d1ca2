import Rollout.Proofs.Dag.NewEdge

/-!
# What a sort cannot place

A sort of a graph with cycles stops before it has placed all nodes. It gets stuck at the nodes on a
cycle and at everything that such a node depends on, for each of these waits for a dependent that is
never placed. All other nodes are placed.

* `Entangled`: a node on a cycle or below one.
* `wellFounded_untangled`: above a node that is not entangled there are no endless chains.
* `Sorting.mem_sorted_iff_untangled`: a sort places exactly the nodes that are not entangled.
* `Simple.unresolved_of_sort`: so a refusal names exactly those that are.
* `WellFormed.entangled_link_iff`: which nodes an edge that closes a cycle entangles.
* `Built.addEdge_unresolved`: what the refusal of such an edge names.
-/

namespace Rollout.Dag

variable {α : Type} [DecidableEq α]

/-! ## Cycles and what lies below them -/

/-- The node lies on a cycle, or some node on a cycle depends on it. -/
def Entangled (d : Dag α) (n : α) : Prop := ∃ c, d.Path c c ∧ d.Path c n

theorem Entangled.of_cycle {d : Dag α} {n : α} (h : d.Path n n) : d.Entangled n := ⟨n, h, h⟩

theorem Entangled.mem_nodes {d : Dag α} (hd : d.Simple) {n : α} (h : d.Entangled n) :
    n ∈ d.nodes := by
  obtain ⟨c, -, hn⟩ := h
  exact hd.path_mem_nodes hn

/-- Where a node is not entangled, nobody can go on from dependent to dependent for ever: some node
would be met twice, and the node would lie below a cycle. -/
theorem wellFounded_untangled {d : Dag α} (hd : d.Simple) :
    WellFounded fun m n => d.Edge m n ∧ ¬ d.Entangled n := by
  have : IsStrictOrder α fun m n => d.Path m n ∧ ¬ d.Entangled n :=
    { irrefl := fun _ h => h.2 (.of_cycle h.1)
      trans := fun _ _ _ h h' => ⟨h.1.trans h'.1, h'.2⟩ }
  have hw := Set.wellFoundedOn_iff.1
    ((List.finite_toSet d.nodes).wellFoundedOn (r := fun m n => d.Path m n ∧ ¬ d.Entangled n))
  refine Subrelation.wf (fun {m n} h => ?_) hw
  exact ⟨⟨.edge h.1, h.2⟩, h.1.mem_nodes, hd.closed m n h.1⟩

/-! ## Where a sort gets stuck -/

namespace Sorting

/-- With a node all its dependents are sorted, and they come before it. -/
theorem mem_sorted_of_path {d : Dag α} (hd : d.Simple) {m n : α} (h : d.Path m n)
    (hn : n ∈ (run d d.sorting).sorted) :
    m ∈ (run d d.sorting).sorted ∧
      (run d d.sorting).sorted.idxOf m < (run d d.sorting).sorted.idxOf n := by
  obtain ⟨hs, -⟩ := (sound_sorting hd).run hd
  induction h with
  | edge first => exact ⟨((mem_sorted_iff hd _).1 hn).2 _ first, hs.before _ hn _ first⟩
  | cons first _ ih =>
    obtain ⟨hmem, hlt⟩ := ih hn
    refine ⟨((mem_sorted_iff hd _).1 hmem).2 _ first, ?_⟩
    exact Nat.lt_trans (hs.before _ hmem _ first) hlt

/-- A sort gets stuck at the entangled nodes and nowhere else. -/
theorem mem_sorted_iff_untangled {d : Dag α} (hd : d.Simple) {n : α} (hn : n ∈ d.nodes) :
    n ∈ (run d d.sorting).sorted ↔ ¬ d.Entangled n := by
  constructor
  · rintro hsorted ⟨c, hcycle, hcn⟩
    obtain ⟨hc, -⟩ := mem_sorted_of_path hd hcn hsorted
    exact Nat.lt_irrefl _ (mem_sorted_of_path hd hcycle hc).2
  · -- From the dependents of a node to the node.
    induction n using (wellFounded_untangled hd).induction with
    | _ n ih =>
      intro hfree
      refine (mem_sorted_iff hd n).2 ⟨hn, fun m hm => ?_⟩
      apply ih m ⟨hm, hfree⟩ hm.mem_nodes
      rintro ⟨c, hcycle, hcm⟩
      exact hfree ⟨c, hcycle, hcm.snoc hm⟩

/-- In the end a node has edges left to count exactly if it is not sorted. -/
theorem count?_run_pos_iff {d : Dag α} (hd : d.Simple) {n : α} (hn : n ∈ d.nodes) :
    0 < ((run d d.sorting).count? n).getD 0 ↔ n ∉ (run d d.sorting).sorted := by
  obtain ⟨hs, -⟩ := (sound_sorting hd).run hd
  have hsorted : n ∈ (run d d.sorting).sorted ↔ left d (run d d.sorting).sorted n = 0 := by
    rw [mem_sorted_iff hd, left_eq_zero_iff]
    exact and_iff_right hn
  rw [hs.counted n hn, hsorted, Option.getD_some]
  omega

end Sorting

/-- A sort that fails names the entangled nodes, in the order of their insertion. -/
theorem Simple.unresolved_of_sort {d : Dag α} (hd : d.Simple) {unresolved : List α}
    (h : d.sort = .error (.cycle unresolved)) :
    unresolved.Sublist d.nodes ∧ ∀ n, n ∈ unresolved ↔ d.Entangled n := by
  have hlist : unresolved =
      d.nodes.filter fun n => 0 < ((Sorting.run d d.sorting).count? n).getD 0 := by
    unfold sort at h
    simp only at h
    split at h
    · cases h
    · cases h
      rfl
  subst hlist
  refine ⟨List.filter_sublist, fun n => ?_⟩
  rw [List.mem_filter, decide_eq_true_eq]
  constructor
  · rintro ⟨hn, hcount⟩
    rw [Sorting.count?_run_pos_iff hd hn, Sorting.mem_sorted_iff_untangled hd hn] at hcount
    exact not_not.1 hcount
  · intro hn
    have hnode := hn.mem_nodes hd
    refine ⟨hnode, ?_⟩
    rw [Sorting.count?_run_pos_iff hd hnode, Sorting.mem_sorted_iff_untangled hd hnode]
    exact not_not.2 hn

/-! ## The edge that closes a cycle -/

/-- In a graph without cycles an edge that closes one entangles its end and all that this one
depends on: every cycle leads over the edge. -/
theorem WellFormed.entangled_link_iff {d : Dag α} (hd : d.WellFormed) {source target : α}
    (hs : source ∈ d.nodes) (hback : source = target ∨ d.Path target source) {n : α} :
    (d.link source target).Entangled n ↔ n = target ∨ d.Path target n := by
  constructor
  · rintro ⟨c, hcycle, hcn⟩
    have hc : target = c ∨ d.Path target c := by
      rcases (path_link_iff hs).1 hcycle with hold | ⟨-, hc⟩
      · exact absurd hold (hd.acyclic c)
      · exact hc
    rcases (path_link_iff hs).1 hcn with hold | ⟨-, rfl | hn⟩
    · rcases hc with rfl | hc
      · exact .inr hold
      · exact .inr (hc.trans hold)
    · exact .inl rfl
    · exact .inr hn
  · have hto : target = source ∨ d.Path target source := hback.imp_left Eq.symm
    have hcycle : (d.link source target).Path target target :=
      (path_link_iff hs).2 (.inr ⟨hto, .inl rfl⟩)
    rintro (rfl | hn)
    · exact .of_cycle hcycle
    · exact ⟨target, hcycle, (path_link_iff hs).2 (.inl hn)⟩

/-- An edge that is refused for a cycle is a new one between two nodes, and it is the sort of the
graph with it that fails. -/
theorem addEdge_eq_cycle {d : Dag α} {source target : α} {unresolved : List α}
    (h : d.addEdge source target = .error (.cycle unresolved)) :
    source ∈ d.nodes ∧ target ∈ d.nodes ∧ ¬ d.Edge source target ∧
      (d.link source target).sort = .error (.cycle unresolved) := by
  unfold addEdge at h
  split at h
  · cases h
  · next hs =>
    split at h
    · cases h
    · next ht =>
      split at h
      · cases h
      · next hnew =>
        refine ⟨not_not.1 hs, not_not.1 ht, hnew, ?_⟩
        cases hsort : (d.link source target).sort with
        | ok l =>
          simp only [hsort] at h
          cases h
        | error r =>
          simp only [hsort] at h
          cases h
          rfl

/-- An edge that is refused for a cycle is refused with the names of exactly those nodes that it
would entangle: its end and all that this one depends on already, among them the node it comes from.
Each is named once, in the order of the insertion of the nodes. -/
theorem Built.addEdge_unresolved {d : Dag α} (h : d.Built) {source target : α}
    {unresolved : List α} (refused : d.addEdge source target = .error (.cycle unresolved)) :
    (∀ n, n ∈ unresolved ↔ n = target ∨ d.Path target n) ∧ source ∈ unresolved ∧
      unresolved.Nodup ∧ unresolved.Sublist d.nodes := by
  have hd := h.wellFormed
  obtain ⟨hs, ht, hnew, hsort⟩ := addEdge_eq_cycle refused
  have hsimple := hd.simple_link hs ht hnew
  have hback : source = target ∨ d.Path target source := by
    by_contra hsafe
    rw [(hd.addEdge_new hs ht hnew).2 hsafe] at refused
    cases refused
  obtain ⟨hsub, hnamed⟩ := hsimple.unresolved_of_sort hsort
  rw [nodes_link] at hsub
  have hmem : ∀ n, n ∈ unresolved ↔ n = target ∨ d.Path target n := fun n =>
    (hnamed n).trans (hd.entangled_link_iff hs hback)
  exact ⟨hmem, (hmem source).2 hback, hd.nodup_nodes.sublist hsub, hsub⟩

/-- A row of three nodes, the second of which needs a fourth one too, and one above the row. -/
def rowWithBranch : Dag Nat := ⟨[(4, []), (3, []), (2, [3, 4]), (1, [2]), (0, [1])]⟩

/-- An edge from the end of the row back to its second node entangles the two, and the fourth node
with them, which is on no cycle. The nodes above are not named. -/
theorem addEdge_unresolved_branch :
    ∃ d : Dag Nat, d.Built ∧
      d.toDependencies = [(4, []), (3, []), (2, [3, 4]), (1, [2]), (0, [1])] ∧
      ∃ unresolved, d.addEdge 3 2 = .error (.cycle unresolved) ∧ unresolved = [4, 3, 2] ∧
        (∀ n, n ∈ unresolved ↔ n = 2 ∨ d.Path 2 n) ∧
        ((Refusal.cycle unresolved).report toString).message =
          "Cycle detected: graph is not acyclic; unresolved nodes: 4, 3, 2" := by
  have hd : rowWithBranch.Built :=
    built_of_ofDependencies [(4, []), (3, []), (2, [3, 4]), (1, [2]), (0, [1])] (by decide +kernel)
  have hrefused : rowWithBranch.addEdge 3 2 = .error (.cycle [4, 3, 2]) := by
    with_unfolding_all rfl
  obtain ⟨hmem, -, -, -⟩ := hd.addEdge_unresolved hrefused
  exact ⟨_, hd, rfl, _, hrefused, rfl, hmem, by decide +kernel⟩

end Rollout.Dag

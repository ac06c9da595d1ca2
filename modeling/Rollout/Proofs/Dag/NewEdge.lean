import Rollout.Proofs.Dag.InPlace

/-!
# Which new edges are accepted

The decision is left to a sort of the graph with the edge. It is the right one: the sort fails
exactly when the edge leads back to where it comes from.

* `path_link_iff`: a path in the graph with the edge either was there or leads over the edge.
* `WellFormed.exists_cycle_link_iff`: so a cycle leads over the edge.
* `Simple.exists_sort_iff`: a graph can be sorted exactly when it has no cycle.
* `Built.addEdge_accepts`: what is answered for any two names, and what becomes of the graph.
-/

namespace Rollout.Dag

variable {α : Type} [DecidableEq α]

/-- A path in the graph with a new edge was there, or it leads to the edge and on from its end. -/
theorem path_link_iff {d : Dag α} {source target : α} (hs : source ∈ d.nodes) {a b : α} :
    (d.link source target).Path a b ↔
      d.Path a b ∨ (a = source ∨ d.Path a source) ∧ (target = b ∨ d.Path target b) := by
  constructor
  · intro h
    induction h with
    | edge first =>
      rcases (edge_link_iff hs).1 first with old | ⟨rfl, rfl⟩
      · exact .inl (.edge old)
      · exact .inr ⟨.inl rfl, .inl rfl⟩
    | cons first _ ih =>
      rcases (edge_link_iff hs).1 first with old | ⟨rfl, rfl⟩
      · rcases ih with rest | ⟨rfl | rest, hb⟩
        · exact .inl (.cons old rest)
        · exact .inr ⟨.inr (.edge old), hb⟩
        · exact .inr ⟨.inr (.cons old rest), hb⟩
      · rcases ih with rest | ⟨-, hb⟩
        · exact .inr ⟨.inl rfl, .inr rest⟩
        · exact .inr ⟨.inl rfl, hb⟩
  · have hold : ∀ x y, d.Edge x y → (d.link source target).Edge x y :=
      fun _ _ h => (edge_link_iff hs).2 (.inl h)
    have hnew : (d.link source target).Path source target :=
      .edge ((edge_link_iff hs).2 (.inr ⟨rfl, rfl⟩))
    rintro (h | ⟨ha, hb⟩)
    · exact h.mono hold
    · have hto : (d.link source target).Path a target := by
        rcases ha with rfl | ha
        · exact hnew
        · exact (ha.mono hold).trans hnew
      rcases hb with rfl | hb
      · exact hto
      · exact hto.trans (hb.mono hold)

/-- A new edge closes a cycle exactly when its end already depends on its start, or is its start. -/
theorem WellFormed.exists_cycle_link_iff {d : Dag α} (hd : d.WellFormed) {source target : α}
    (hs : source ∈ d.nodes) :
    (∃ n, (d.link source target).Path n n) ↔ source = target ∨ d.Path target source := by
  constructor
  · rintro ⟨n, h⟩
    rcases (path_link_iff hs).1 h with h | ⟨rfl | hn, rfl | ht⟩
    · exact absurd h (hd.acyclic n)
    · exact .inl rfl
    · exact .inr ht
    · exact .inr hn
    · exact .inr (ht.trans hn)
  · intro h
    refine ⟨source, (path_link_iff hs).2 (.inr ⟨.inl rfl, ?_⟩)⟩
    exact h.imp_left Eq.symm

theorem Simple.exists_sort_iff {d : Dag α} (hd : d.Simple) :
    (∃ l, d.sort = .ok l) ↔ ∀ n, ¬ d.Path n n :=
  ⟨fun ⟨_, h⟩ => hd.acyclic_of_sort h, fun h => (hd.wellFormed h).exists_sort⟩

/-- A sort that fails names the nodes it could not place. -/
theorem sort_eq_error {d : Dag α} {r : Refusal α} (h : d.sort = .error r) :
    ∃ unresolved, r = .cycle unresolved := by
  rw [sort] at h
  split at h
  · cases h
  · cases h
    exact ⟨_, rfl⟩

/-- A new edge between two nodes is refused for a cycle exactly when it closes one, and added
otherwise. -/
theorem WellFormed.addEdge_new {d : Dag α} (hd : d.WellFormed) {source target : α}
    (hs : source ∈ d.nodes) (ht : target ∈ d.nodes) (hnew : ¬ d.Edge source target) :
    (source = target ∨ d.Path target source →
        ∃ unresolved, d.addEdge source target = .error (.cycle unresolved)) ∧
      (¬ (source = target ∨ d.Path target source) →
        d.addEdge source target = .ok (d.link source target)) := by
  have hsort := (hd.simple_link hs ht hnew).exists_sort_iff
  rw [← hd.exists_cycle_link_iff hs, Dag.addEdge, if_neg (not_not.2 hs), if_neg (not_not.2 ht),
    if_neg (show target ∉ d.dependencies source from hnew)]
  dsimp only
  constructor
  · rintro ⟨n, hn⟩
    cases h : (d.link source target).sort with
    | ok l => exact absurd hn (hsort.1 ⟨l, h⟩ n)
    | error r =>
      obtain ⟨unresolved, rfl⟩ := sort_eq_error h
      exact ⟨unresolved, rfl⟩
  · intro hcycle
    obtain ⟨l, hl⟩ := hsort.2 fun n hn => hcycle ⟨n, hn⟩
    rw [hl]

/-- What is answered to a new edge. Both ends have to be nodes; an edge that was there changes
nothing; one that closes a cycle is refused; any other is put at the end of its list, and nothing
else changes. A refusal leaves the order and the map as they were. -/
theorem Built.addEdge_accepts {d : Dag α} (h : d.Built) (source target : α) :
    (source ∉ d.nodes → d.addEdge source target = .error (.missingNode source)) ∧
      (source ∈ d.nodes → target ∉ d.nodes →
        d.addEdge source target = .error (.missingNode target)) ∧
      (source ∈ d.nodes → target ∈ d.nodes → d.Edge source target →
        d.addEdge source target = .ok d) ∧
      (source ∈ d.nodes → target ∈ d.nodes → ¬ d.Edge source target →
        ((∃ unresolved, d.addEdge source target = .error (.cycle unresolved)) ↔
          source = target ∨ d.Path target source) ∧
        (¬ (source = target ∨ d.Path target source) →
          ∃ e, d.addEdge source target = .ok e ∧ e.nodes = d.nodes ∧
            ∀ n, e.dependencies n =
              if n = source then d.dependencies n ++ [target] else d.dependencies n)) ∧
      (∀ r, d.addEdge source target = .error r →
        d.indexed.addEdge? source target = some (.error r, d.indexed)) ∧
      ∀ e, d.addEdge source target = .ok e →
        d.indexed.addEdge? source target = some (.ok (), e.indexed) := by
  have hd := h.wellFormed
  have hplace := addEdge?_indexed hd source target
  refine ⟨fun hs => ?_, fun hs ht => ?_, fun hs ht hst => ?_, fun hs ht hst => ?_, fun r hr => ?_,
    fun e he => ?_⟩
  · rw [Dag.addEdge, if_pos hs]
  · rw [Dag.addEdge, if_neg (not_not.2 hs), if_pos ht]
  · rw [Dag.addEdge, if_neg (not_not.2 hs), if_neg (not_not.2 ht),
      if_pos (show target ∈ d.dependencies source from hst)]
  · obtain ⟨hrefused, hadded⟩ := hd.addEdge_new hs ht hst
    refine ⟨⟨fun hcycle => ?_, hrefused⟩, fun hsafe => ?_⟩
    · obtain ⟨unresolved, herror⟩ := hcycle
      by_contra hsafe
      rw [hadded hsafe] at herror
      cases herror
    · exact ⟨_, hadded hsafe, nodes_link d source target, dependencies_link hs target⟩
  · rw [hplace, hr]
    rfl
  · rw [hplace, he]
    rfl

/-- Of two nodes one depends on the other. The edge back is refused, and one to a third node is
added. -/
theorem addEdge_accepts_pair :
    ∃ d : Dag Nat, d.Built ∧ d.toDependencies = [(1, [2]), (2, []), (3, [])] ∧
      (∃ unresolved, d.addEdge 2 1 = .error (.cycle unresolved)) ∧
      ∃ e, d.addEdge 2 3 = .ok e ∧ e.nodes = [1, 2, 3] ∧ e.dependencies 2 = [3] := by
  have hbuilt : Dag.ofDependencies [(1, [2]), (2, []), (3, [])] =
      .ok (⟨[(1, [2]), (2, []), (3, [])]⟩ : Dag Nat) := by with_unfolding_all rfl
  have hd := Built.ofDependencies hbuilt
  have hback : (⟨[(1, [2]), (2, []), (3, [])]⟩ : Dag Nat).Path 1 2 := .edge (by decide)
  have hsafe : ¬ (⟨[(1, [2]), (2, []), (3, [])]⟩ : Dag Nat).Path 3 2 := by
    intro hpath
    obtain ⟨c, hc, -⟩ := hpath.exists_first
    exact absurd hc List.not_mem_nil
  obtain ⟨-, -, -, hcycle, -⟩ := hd.addEdge_accepts 2 1
  obtain ⟨-, -, -, hfree, -⟩ := hd.addEdge_accepts 2 3
  obtain ⟨e, he, hnodes, hdeps⟩ := (hfree (by decide) (by decide) (by decide)).2 (by simp [hsafe])
  refine ⟨_, hd, rfl, (hcycle (by decide) (by decide) (by decide)).1.2 (.inr hback), e, he,
    hnodes, ?_⟩
  rw [hdeps]
  rfl

end Rollout.Dag

import Rollout.Proofs.Dag.Built
import Rollout.Proofs.Dag.Transitive

/-!
# What a narrowed graph holds

A graph is narrowed to the nodes of a list and all that they need. Each dependency list is filtered
too, but nothing can be missing from it: with a node all its dependencies are kept.

* `restrict_eq_error`, `exists_restrict`: a list is refused for its first name that is no node, and
  for nothing else.
* `dependencies_keep_of_mem`: a node that is kept needs what it needed.
* `keep_keep`: narrowing a narrowed graph again.
* `Built.restrict_closure`: all this of every graph that can be built.
-/

namespace Rollout.Dag

variable {α : Type} [DecidableEq α]

/-! ## Which lists are refused -/

theorem restrict_eq_error {d : Dag α} {ns : List α} {n : α}
    (h : ns.find? (· ∉ d.nodes) = some n) : d.restrict ns = .error (.missingNode n) := by
  rw [restrict_eq, closure_eq, h]
  rfl

theorem exists_restrict {d : Dag α} {ns : List α} (h : ∀ n ∈ ns, n ∈ d.nodes) :
    ∃ kept, d.closure ns = .ok kept ∧ d.restrict ns = .ok (d.keep kept) := by
  have hfind : ns.find? (· ∉ d.nodes) = none :=
    List.find?_eq_none.2 fun n hn => by simpa using h n hn
  rw [restrict_eq, closure_eq, hfind]
  exact ⟨_, rfl, rfl⟩

/-! ## What is kept -/

/-- Nothing is dropped from the dependencies of a node that is kept. -/
theorem dependencies_keep_of_mem {d : Dag α} {kept : List α} (hk : d.Keeps kept) {n : α}
    (hn : n ∈ kept) : (d.keep kept).dependencies n = d.dependencies n := by
  rw [dependencies_keep, if_pos hn]
  refine List.filter_eq_self.2 fun m hm => ?_
  exact decide_eq_true (hk n hn m hm)

/-- From a node that is kept the same paths lead on. -/
theorem path_keep_of_mem {d : Dag α} {kept : List α} (hk : d.Keeps kept) {a b : α}
    (ha : a ∈ kept) : (d.keep kept).Path a b ↔ d.Path a b :=
  (path_keep_iff hk).trans (and_iff_right ha)

/-- What is left are the nodes that the list names and those that they need. -/
theorem mem_nodes_keep_closure_iff {d : Dag α} (hd : d.Simple) {ns kept : List α}
    (h : d.closure ns = .ok kept) {m : α} :
    m ∈ (d.keep kept).nodes ↔ ∃ n ∈ ns, n = m ∨ d.Path n m := by
  obtain ⟨hnodes, hmem⟩ := closure_eq_ok h
  rw [mem_nodes_keep_iff, hmem m]
  refine ⟨And.right, fun hm => ⟨?_, hm⟩⟩
  obtain ⟨n, hn, rfl | hpath⟩ := hm
  · exact hnodes n hn
  · exact hd.path_mem_nodes hpath

theorem allDependenciesOf_keep {d : Dag α} (hd : d.WellFormed) {kept : List α} (hk : d.Keeps kept)
    {a : α} (ha : a ∈ (d.keep kept).nodes) :
    ∃ l l', (d.keep kept).allDependenciesOf a = .ok l ∧ d.allDependenciesOf a = .ok l' ∧
      l.Perm l' := by
  obtain ⟨hnode, hkept⟩ := mem_nodes_keep_iff.1 ha
  obtain ⟨l, hl, hnodup, hbelow⟩ := (hd.keep hk).allDependenciesOf_eq_ok ha
  obtain ⟨l', hl', hnodup', hbelow'⟩ := hd.allDependenciesOf_eq_ok hnode
  refine ⟨l, l', hl, hl', (List.perm_ext_iff_of_nodup hnodup hnodup').2 fun m => ?_⟩
  rw [hbelow, hbelow', path_keep_of_mem hk hkept]

/-! ## Narrowing again -/

theorem keep_congr (d : Dag α) {kept kept' : List α} (h : ∀ n, n ∈ kept ↔ n ∈ kept') :
    d.keep kept = d.keep kept' := by
  simp only [keep, h]

theorem keep_keep (d : Dag α) {kept inner : List α} (h : ∀ n ∈ inner, n ∈ kept) :
    (d.keep kept).keep inner = d.keep inner := by
  have hboth : ∀ n, (decide (n ∈ inner) && decide (n ∈ kept)) = decide (n ∈ inner) := by
    intro n
    by_cases hn : n ∈ inner
    · simp [hn, h n hn]
    · simp [hn]
  simp only [keep, List.filter_map, List.map_map, List.filter_filter, Function.comp_def, hboth]

/-- Names that were kept are narrowed to in the narrowed graph as in the whole one. -/
theorem restrict_keep {d : Dag α} {kept as : List α} (hk : d.Keeps kept)
    (has : ∀ a ∈ as, a ∈ (d.keep kept).nodes) :
    ∃ f, (d.keep kept).restrict as = .ok f ∧ d.restrict as = .ok f := by
  have hkept : ∀ a ∈ as, a ∈ kept := fun a ha => (mem_nodes_keep_iff.1 (has a ha)).2
  obtain ⟨inner, hinner, hrestrict⟩ := exists_restrict has
  obtain ⟨inner', hinner', hrestrict'⟩ := exists_restrict fun a ha =>
    (mem_nodes_keep_iff.1 (has a ha)).1
  -- The two searches may collect the nodes differently, but they collect the same ones.
  have hsame : ∀ n, n ∈ inner ↔ n ∈ inner' := by
    intro n
    rw [(closure_eq_ok hinner).2 n, (closure_eq_ok hinner').2 n]
    refine exists_congr fun a => and_congr_right fun ha => or_congr_right ?_
    exact path_keep_of_mem hk (hkept a ha)
  have hsub : ∀ n ∈ inner, n ∈ kept := by
    intro n hn
    obtain ⟨a, ha, rfl | hpath⟩ := ((closure_eq_ok hinner).2 n).1 hn
    · exact hkept a ha
    · obtain ⟨c, -, last⟩ := hpath.exists_last
      obtain ⟨hc, last⟩ := (edge_keep_iff hk).1 last
      exact hk c hc n last
  exact ⟨_, hrestrict, by rw [hrestrict', keep_keep d hsub, keep_congr d hsame]⟩

/-- A list of names is refused for the first one that is no node. Otherwise the graph that is left
has the named nodes and all that they depend on, in the order of the graph, and each needs exactly
what it needed, in the same order. So paths, and what lies below a node, are as they were, and names
that are left can be narrowed to as if nothing had been dropped before. -/
theorem Built.restrict_closure {d : Dag α} (h : d.Built) (ns : List α) :
    (∀ n, ns.find? (· ∉ d.nodes) = some n → d.restrict ns = .error (.missingNode n)) ∧
    ((∀ n ∈ ns, n ∈ d.nodes) → ∃ e, d.restrict ns = .ok e ∧
      e.nodes.Sublist d.nodes ∧
      (∀ m, m ∈ e.nodes ↔ ∃ n ∈ ns, n = m ∨ d.Path n m) ∧
      (∀ n ∈ e.nodes, e.dependencies n = d.dependencies n) ∧
      (∀ a ∈ e.nodes, ∀ b, e.hasPath a b = d.hasPath a b) ∧
      (∀ a ∈ e.nodes, ∃ l l', e.allDependenciesOf a = .ok l ∧ d.allDependenciesOf a = .ok l' ∧
        l.Perm l') ∧
      ∀ as, (∀ a ∈ as, a ∈ e.nodes) → ∃ f, e.restrict as = .ok f ∧ d.restrict as = .ok f) := by
  have hd := h.wellFormed
  refine ⟨fun n => restrict_eq_error, fun hns => ?_⟩
  obtain ⟨kept, hkept, hrestrict⟩ := exists_restrict hns
  have hk := keeps_of_closure hkept
  refine ⟨d.keep kept, hrestrict, ?_, fun m => mem_nodes_keep_closure_iff hd.simple hkept,
    fun n hn => ?_, fun a ha b => ?_, fun a ha => allDependenciesOf_keep hd hk ha,
    fun as has => restrict_keep hk has⟩
  · rw [nodes_keep]
    exact List.filter_sublist
  · exact dependencies_keep_of_mem hk (mem_nodes_keep_iff.1 hn).2
  · obtain ⟨hnode, hkept⟩ := mem_nodes_keep_iff.1 ha
    exact hasPath_congr ha hnode (path_keep_of_mem hk hkept)

/-- Two nodes that share a dependency, and one apart. -/
def shared : Dag Nat := ⟨[(1, [4, 3]), (2, [4]), (3, []), (4, []), (5, [1])]⟩

/-- A name that is no node is refused, also when there is another one after it; the two nodes that
share a dependency, named together, keep what they need, each its own list. -/
theorem restrict_closure_shared :
    ∃ d : Dag Nat, d.Built ∧
      d.toDependencies = [(1, [4, 3]), (2, [4]), (3, []), (4, []), (5, [1])] ∧
      d.restrict [2, 7, 8] = .error (.missingNode 7) ∧
      ∃ e, d.restrict [2, 1] = .ok e ∧ 5 ∉ e.nodes ∧ e.dependencies 1 = [4, 3] ∧
        e.hasPath 1 4 = .ok true ∧ ∃ f, e.restrict [2] = .ok f ∧ d.restrict [2] = .ok f := by
  have hd : shared.Built :=
    built_of_ofDependencies [(1, [4, 3]), (2, [4]), (3, []), (4, []), (5, [1])] (by decide +kernel)
  obtain ⟨hmissing, -⟩ := hd.restrict_closure [2, 7, 8]
  obtain ⟨-, hnarrow⟩ := hd.restrict_closure [2, 1]
  obtain ⟨e, he, -, hmem, hdeps, hpath, -, hagain⟩ := hnarrow (by decide)
  have h1 : 1 ∈ e.nodes := (hmem 1).2 ⟨1, by decide, .inl rfl⟩
  have h2 : 2 ∈ e.nodes := (hmem 2).2 ⟨2, by decide, .inl rfl⟩
  -- Nobody depends on the node apart.
  have h5 : 5 ∉ e.nodes := by
    intro h
    obtain ⟨n, hn, rfl | hpath⟩ := (hmem 5).1 h
    · exact absurd hn (by decide)
    · obtain ⟨c, -, last⟩ := hpath.exists_last
      have hnobody : ∀ c ∈ shared.nodes, ¬ shared.Edge c 5 := by decide
      exact hnobody c last.mem_nodes last
  exact ⟨_, hd, rfl, hmissing 7 (by decide), e, he, h5, (hdeps 1 h1).trans (by decide),
    (hpath 1 h1 4).trans (hasPath_eq_true_iff.2 ⟨by decide, .edge (by decide)⟩),
    hagain [2] (by simpa using h2)⟩

end Rollout.Dag

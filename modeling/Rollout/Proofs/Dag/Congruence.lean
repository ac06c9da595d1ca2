import Rollout.Proofs.Dag.Closure
import Rollout.Proofs.Dag.Entries
import Rollout.Proofs.Dag.Reduction
import Rollout.Proofs.Dag.Representation
import Rollout.Proofs.Dag.Unresolved

/-!
# Equal graphs answer alike

Equal graphs have the same nodes and the same edges, each in an order of its own. Operations go
through nodes and edges in that order, so what they do has to be told without it.

* `Matches`: the same nodes and the same edges. It is an equivalence, and it is what the check finds
  (`Simple.same_iff_matches`).
* `Matches.path_iff`, `Matches.detour_iff`, `Matches.entangled_iff`: what follows about paths.
* `Matches.sort`: both graphs can be sorted or neither can, and the same nodes are in the way.
* `Alike`: two graphs that match, or two refusals of one kind. `Matches.perform`: how any edit of
  two graphs ends.
* `after`: the graph after an edit, refused or not.
* `Built.same_congruence`: all this of the graphs that can be built.
-/

namespace Rollout.Dag

variable {α : Type} [DecidableEq α]

/-! ## The same nodes and edges -/

/-- The same nodes and the same edges, in whatever order. -/
@[mk_iff]
structure Matches (d e : Dag α) : Prop where
  mem_nodes_iff : ∀ n, n ∈ d.nodes ↔ n ∈ e.nodes
  edge_iff : ∀ a b, d.Edge a b ↔ e.Edge a b

theorem Simple.same_iff_matches {d e : Dag α} (hd : d.Simple) (he : e.Simple) :
    (d == e) = true ↔ d.Matches e := by
  rw [hd.same_iff he, matches_iff]

theorem edge_dropNode_iff {d : Dag α} {n a b : α} :
    (d.dropNode n).Edge a b ↔ a ≠ n ∧ b ≠ n ∧ d.Edge a b := by
  unfold Edge
  rw [dependencies_dropNode]
  by_cases ha : a = n
  · simp [ha]
  · simp [ha, and_comm]

theorem edge_unlink_iff {d : Dag α} {source target a b : α} :
    (d.unlink source target).Edge a b ↔ d.Edge a b ∧ ¬ (a = source ∧ b = target) := by
  unfold Edge
  rw [dependencies_unlink]
  by_cases ha : a = source
  · simp [ha]
  · simp [ha]

namespace Matches

variable {d e f : Dag α}

theorem refl (d : Dag α) : d.Matches d := ⟨fun _ => Iff.rfl, fun _ _ => Iff.rfl⟩

theorem symm (h : d.Matches e) : e.Matches d :=
  ⟨fun n => (h.mem_nodes_iff n).symm, fun a b => (h.edge_iff a b).symm⟩

theorem trans (h : d.Matches e) (h' : e.Matches f) : d.Matches f :=
  ⟨fun n => (h.mem_nodes_iff n).trans (h'.mem_nodes_iff n),
    fun a b => (h.edge_iff a b).trans (h'.edge_iff a b)⟩

/-! ## Paths -/

theorem path_iff (h : d.Matches e) {a b : α} : d.Path a b ↔ e.Path a b :=
  ⟨Path.mono fun x y => (h.edge_iff x y).1, Path.mono fun x y => (h.edge_iff x y).2⟩

theorem detour_iff (h : d.Matches e) {a b : α} : d.Detour a b ↔ e.Detour a b :=
  ⟨Detour.mono fun x y => (h.edge_iff x y).1, Detour.mono fun x y => (h.edge_iff x y).2⟩

theorem entangled_iff (h : d.Matches e) {n : α} : d.Entangled n ↔ e.Entangled n := by
  unfold Entangled
  simp only [h.path_iff]

theorem hasPath (h : d.Matches e) (a b : α) : d.hasPath a b = e.hasPath a b := by
  by_cases ha : a ∈ d.nodes
  · exact hasPath_congr ha ((h.mem_nodes_iff a).1 ha) h.path_iff
  · have ha' : a ∉ e.nodes := fun hmem => ha ((h.mem_nodes_iff a).2 hmem)
    rw [hasPath_of_not_mem ha, hasPath_of_not_mem ha']

/-! ## Nodes and edges after each operation -/

theorem snoc (h : d.Matches e) (n : α) :
    Matches ⟨d.entries ++ [(n, [])]⟩ ⟨e.entries ++ [(n, [])]⟩ where
  mem_nodes_iff m := by
    rw [nodes_snoc, nodes_snoc, List.mem_append, List.mem_append, h.mem_nodes_iff m]
  edge_iff a b := by
    unfold Edge
    rw [dependencies_snoc, dependencies_snoc]
    exact h.edge_iff a b

theorem dropNode (h : d.Matches e) (n : α) : (d.dropNode n).Matches (e.dropNode n) where
  mem_nodes_iff m := by
    rw [nodes_dropNode, nodes_dropNode, List.mem_filter, List.mem_filter, h.mem_nodes_iff m]
  edge_iff a b := by rw [edge_dropNode_iff, edge_dropNode_iff, h.edge_iff a b]

theorem link (h : d.Matches e) {source : α} (hs : source ∈ d.nodes) (target : α) :
    (d.link source target).Matches (e.link source target) where
  mem_nodes_iff m := by rw [nodes_link, nodes_link, h.mem_nodes_iff m]
  edge_iff a b := by
    rw [edge_link_iff hs, edge_link_iff ((h.mem_nodes_iff source).1 hs), h.edge_iff a b]

theorem unlink (h : d.Matches e) (source target : α) :
    (d.unlink source target).Matches (e.unlink source target) where
  mem_nodes_iff m := by rw [nodes_unlink, nodes_unlink, h.mem_nodes_iff m]
  edge_iff a b := by rw [edge_unlink_iff, edge_unlink_iff, h.edge_iff a b]

theorem transpose (h : d.Matches e) (hd : d.Simple) (he : e.Simple) :
    d.transpose.Matches e.transpose where
  mem_nodes_iff m := by rw [nodes_transpose hd, nodes_transpose he, h.mem_nodes_iff m]
  edge_iff a b := by rw [edge_transpose_iff hd, edge_transpose_iff he, h.edge_iff b a]

theorem keep (h : d.Matches e) {kept kept' : List α} (hk : d.Keeps kept) (hk' : e.Keeps kept')
    (hsame : ∀ n, n ∈ kept ↔ n ∈ kept') : (d.keep kept).Matches (e.keep kept') where
  mem_nodes_iff m := by
    rw [mem_nodes_keep_iff, mem_nodes_keep_iff, h.mem_nodes_iff m, hsame m]
  edge_iff a b := by rw [edge_keep_iff hk, edge_keep_iff hk', h.edge_iff a b, hsame a]

theorem reduce (h : d.Matches e) (hd : d.WellFormed) (he : e.WellFormed) :
    d.reduce.Matches e.reduce where
  mem_nodes_iff m := by rw [nodes_reduce, nodes_reduce, h.mem_nodes_iff m]
  edge_iff a b := by rw [edge_reduce_iff hd, edge_reduce_iff he, h.edge_iff a b, h.detour_iff]

/-- Both graphs can be sorted, or neither can. In that case the same nodes cannot be placed. -/
theorem sort (h : d.Matches e) (hd : d.Simple) (he : e.Simple) :
    (∃ l l', d.sort = .ok l ∧ e.sort = .ok l') ∨
      ∃ l l', d.sort = .error (.cycle l) ∧ e.sort = .error (.cycle l') ∧ l.Perm l' := by
  have hiff : (∃ l, d.sort = .ok l) ↔ ∃ l, e.sort = .ok l := by
    rw [hd.exists_sort_iff, he.exists_sort_iff]
    simp only [h.path_iff]
  by_cases hsort : ∃ l, d.sort = .ok l
  · obtain ⟨l', hl'⟩ := hiff.1 hsort
    obtain ⟨l, hl⟩ := hsort
    exact .inl ⟨l, l', hl, hl'⟩
  · cases hdsort : d.sort with
    | ok l => exact absurd ⟨l, hdsort⟩ hsort
    | error r =>
      cases hesort : e.sort with
      | ok l' => exact absurd (hiff.2 ⟨l', hesort⟩) hsort
      | error r' =>
        obtain ⟨l, rfl⟩ := sort_eq_error hdsort
        obtain ⟨l', rfl⟩ := sort_eq_error hesort
        obtain ⟨hsub, hnamed⟩ := hd.unresolved_of_sort hdsort
        obtain ⟨hsub', hnamed'⟩ := he.unresolved_of_sort hesort
        have hl : l.Nodup := hd.nodup_nodes.sublist hsub
        have hl' : l'.Nodup := he.nodup_nodes.sublist hsub'
        refine .inr ⟨l, l', rfl, rfl, (List.perm_ext_iff_of_nodup hl hl').2 fun n => ?_⟩
        rw [hnamed, hnamed', h.entangled_iff]

end Matches

/-! ## Edits of two graphs -/

/-- Refusals of one kind that name the same nodes, those without an order in whatever order. -/
inductive Refusal.Alike : Refusal α → Refusal α → Prop where
  | refl (r : Refusal α) : Alike r r
  | cycle {unresolved unresolved' : List α} (named : unresolved.Perm unresolved') :
      Alike (.cycle unresolved) (.cycle unresolved')

/-- Two graphs that match, or two refusals of one kind. -/
inductive Alike : Except (Refusal α) (Dag α) → Except (Refusal α) (Dag α) → Prop where
  | ok {d e : Dag α} (matching : d.Matches e) : Alike (.ok d) (.ok e)
  | error {r r' : Refusal α} (alike : r.Alike r') : Alike (.error r) (.error r')

namespace Matches

variable {d e : Dag α}

theorem addEdge (h : d.Matches e) (hd : d.WellFormed) (he : e.WellFormed) (source target : α) :
    Alike (d.addEdge source target) (e.addEdge source target) := by
  have hedge : target ∈ d.dependencies source ↔ target ∈ e.dependencies source :=
    h.edge_iff source target
  unfold Dag.addEdge
  simp only [h.mem_nodes_iff, hedge]
  by_cases hs : source ∈ e.nodes
  · by_cases ht : target ∈ e.nodes
    · by_cases hold : target ∈ e.dependencies source
      · rw [if_neg (not_not.2 hs), if_neg (not_not.2 ht), if_pos hold, if_neg (not_not.2 hs),
          if_neg (not_not.2 ht), if_pos hold]
        exact .ok h
      · rw [if_neg (not_not.2 hs), if_neg (not_not.2 ht), if_neg hold, if_neg (not_not.2 hs),
          if_neg (not_not.2 ht), if_neg hold]
        have hs' := (h.mem_nodes_iff source).2 hs
        have ht' := (h.mem_nodes_iff target).2 ht
        have hnew : ¬ d.Edge source target := fun hst => hold (hedge.1 hst)
        have hlinked := h.link hs' target
        rcases hlinked.sort (hd.simple_link hs' ht' hnew) (he.simple_link hs ht hold) with
          ⟨l, l', hl, hl'⟩ | ⟨l, l', hl, hl', hperm⟩
        · rw [hl, hl']
          exact .ok hlinked
        · rw [hl, hl']
          exact .error (.cycle hperm)
    · rw [if_neg (not_not.2 hs), if_pos ht, if_neg (not_not.2 hs), if_pos ht]
      exact .error (.refl _)
  · rw [if_pos hs, if_pos hs]
    exact .error (.refl _)

theorem restrict (h : d.Matches e) (ns : List α) : Alike (d.restrict ns) (e.restrict ns) := by
  cases hfind : ns.find? (· ∉ d.nodes) with
  | some n =>
    have hfind' : ns.find? (· ∉ e.nodes) = some n := by
      simpa only [h.mem_nodes_iff] using hfind
    rw [restrict_eq_error hfind, restrict_eq_error hfind']
    exact .error (.refl _)
  | none =>
    have hnodes : ∀ n ∈ ns, n ∈ d.nodes := fun n hn => by
      simpa using List.find?_eq_none.1 hfind n hn
    obtain ⟨kept, hkept, hok⟩ := exists_restrict hnodes
    obtain ⟨kept', hkept', hok'⟩ := exists_restrict fun n hn => (h.mem_nodes_iff n).1 (hnodes n hn)
    rw [hok, hok']
    refine .ok (h.keep (keeps_of_closure hkept) (keeps_of_closure hkept') fun n => ?_)
    rw [(closure_eq_ok hkept).2 n, (closure_eq_ok hkept').2 n]
    simp only [h.path_iff]

/-- Whatever edit is made of two graphs that match, it is refused for both in one way, or it leaves
graphs that match. -/
theorem perform (h : d.Matches e) (hd : d.WellFormed) (he : e.WellFormed) (edit : Edit α) :
    Alike (d.perform edit) (e.perform edit) := by
  cases edit with
  | addNode n =>
    simp only [Dag.perform, Dag.addNode, h.mem_nodes_iff]
    split
    · exact .error (.refl _)
    · exact .ok (h.snoc n)
  | ensureNode n =>
    simp only [Dag.perform, Dag.ensureNode, h.mem_nodes_iff]
    split
    · exact .ok h
    · exact .ok (h.snoc n)
  | removeNode n =>
    simp only [Dag.perform, Dag.removeNode, h.mem_nodes_iff]
    split
    · exact .ok (h.dropNode n)
    · exact .error (.refl _)
  | discardNode n =>
    simp only [Dag.perform, Dag.discardNode, h.mem_nodes_iff]
    split
    · exact .ok (h.dropNode n)
    · exact .ok h
  | addEdge source target => exact h.addEdge hd he source target
  | removeEdge source target =>
    have hedge : target ∈ d.dependencies source ↔ target ∈ e.dependencies source :=
      h.edge_iff source target
    simp only [Dag.perform, Dag.removeEdge, hedge]
    split
    · exact .ok (h.unlink source target)
    · exact .error (.refl _)
  | transpose => exact .ok (h.transpose hd.simple he.simple)
  | restrict ns => exact h.restrict ns
  | reduce => exact .ok (h.reduce hd he)

end Matches

/-- The graph that is there after an edit: a refused one leaves the graph as it was. -/
def after (d : Dag α) (edit : Edit α) : Dag α := (d.perform edit).toOption.getD d

theorem Built.after {d : Dag α} (hd : d.Built) (edit : Edit α) : (d.after edit).Built := by
  unfold Dag.after
  cases h : d.perform edit with
  | ok e => exact hd.perform h
  | error r => exact hd

theorem answer_perform (d : Dag α) (edit : Edit α) :
    d.answer (d.perform edit) = ((d.perform edit).map fun _ => (), (d.after edit).indexed) := by
  unfold Dag.after
  cases d.perform edit <;> rfl

theorem Alike.after {d e : Dag α} (h : d.Matches e) {edit : Edit α}
    (halike : Alike (d.perform edit) (e.perform edit)) : (d.after edit).Matches (e.after edit) := by
  unfold Dag.after
  generalize d.perform edit = x at halike
  generalize e.perform edit = y at halike
  cases halike with
  | ok matching => exact matching
  | error alike => exact h

/-- Two graphs are equal if they have the same nodes and the same edges. This is an equivalence, and
the order in which nodes and edges were given plays no part in it. Equal graphs answer alike: all
questions about paths, and any edit, which succeeds for both or is refused for both in one way.
Order and map are then those of equal graphs again. -/
theorem Built.same_congruence {d e : Dag α} (hd : d.Built) (he : e.Built) :
    ((d == e) = true ↔ (∀ n, n ∈ d.nodes ↔ n ∈ e.nodes) ∧ ∀ a b, d.Edge a b ↔ e.Edge a b) ∧
      (d == d) = true ∧ ((d == e) = true → (e == d) = true) ∧
      (∀ f : Dag α, f.Built → (d == e) = true → (e == f) = true → (d == f) = true) ∧
      (∀ entries, Rearranged d.entries entries →
        ∃ f, Dag.ofDependencies entries = .ok f ∧ (d == f) = true) ∧
      ((d == e) = true →
        (∀ a b, d.hasPath a b = e.hasPath a b) ∧
        ∀ edit, Alike (d.perform edit) (e.perform edit) ∧
          d.indexed.perform edit =
            some ((d.perform edit).map fun _ => (), (d.after edit).indexed) ∧
          e.indexed.perform edit =
            some ((e.perform edit).map fun _ => (), (e.after edit).indexed) ∧
          (d.after edit == e.after edit) = true) := by
  have hdw := hd.wellFormed
  have hew := he.wellFormed
  have hsame : (d == e) = true ↔ d.Matches e := hdw.simple.same_iff_matches hew.simple
  refine ⟨hdw.simple.same_iff hew.simple, ?_, fun h => ?_, fun f hf h h' => ?_,
    fun entries hturned => ?_, fun h => ?_⟩
  · exact (hdw.simple.same_iff_matches hdw.simple).2 (.refl d)
  · exact (hew.simple.same_iff_matches hdw.simple).2 (hsame.1 h).symm
  · have hfw := hf.wellFormed
    have hmatch := (hsame.1 h).trans ((hew.simple.same_iff_matches hfw.simple).1 h')
    exact (hdw.simple.same_iff_matches hfw.simple).2 hmatch
  · have hadm : Admissible entries := hturned.admissible_iff.1 hdw.admissible
    obtain ⟨f, hf⟩ := exists_ofDependencies_iff.2 hadm
    exact ⟨f, hf, hturned.same hdw.ofDependencies_entries hf⟩
  · have hmatch := hsame.1 h
    refine ⟨hmatch.hasPath, fun edit => ?_⟩
    have halike := hmatch.perform hdw hew edit
    have hafter := ((hd.after edit).wellFormed.simple.same_iff_matches
      (he.after edit).wellFormed.simple).2 (halike.after hmatch)
    refine ⟨halike, ?_, ?_, hafter⟩
    · rw [hdw.perform_indexed, answer_perform]
    · rw [hew.perform_indexed, answer_perform]

/-- Three nodes, each of which needs all that come after it in this list. -/
def descending : Dag Nat := ⟨[(1, [3, 2]), (2, [3]), (3, [])]⟩

/-- The same nodes and edges, inserted the other way round. -/
def ascending : Dag Nat := ⟨[(3, []), (2, [3]), (1, [2, 3])]⟩

/-- The two graphs are equal. An edge that closes a cycle is refused for both, with the same names
in two orders; without the edge that the others imply they are equal again. -/
theorem same_congruence_reordered :
    ∃ d e : Dag Nat, d.Built ∧ e.Built ∧
      d.toDependencies = [(1, [3, 2]), (2, [3]), (3, [])] ∧
      e.toDependencies = [(3, []), (2, [3]), (1, [2, 3])] ∧ (d == e) = true ∧
      d.hasPath 1 3 = e.hasPath 1 3 ∧
      d.addEdge 3 1 = .error (.cycle [1, 2, 3]) ∧ e.addEdge 3 1 = .error (.cycle [3, 2, 1]) ∧
      Alike (d.addEdge 3 1) (e.addEdge 3 1) ∧ (d.after .reduce == e.after .reduce) = true := by
  have hd : descending.Built :=
    built_of_ofDependencies [(1, [3, 2]), (2, [3]), (3, [])] (by decide +kernel)
  have he : ascending.Built :=
    built_of_ofDependencies [(3, []), (2, [3]), (1, [2, 3])] (by decide +kernel)
  have hsame : (descending == ascending) = true := by decide
  obtain ⟨-, -, -, -, -, hcongr⟩ := hd.same_congruence he
  obtain ⟨hpath, hedit⟩ := hcongr hsame
  obtain ⟨halike, -⟩ := hedit (.addEdge 3 1)
  obtain ⟨-, -, -, hreduced⟩ := hedit .reduce
  refine ⟨_, _, hd, he, rfl, rfl, hsame, hpath 1 3, ?_, ?_, halike, hreduced⟩
  · with_unfolding_all rfl
  · with_unfolding_all rfl

end Rollout.Dag

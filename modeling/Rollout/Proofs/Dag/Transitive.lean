import Rollout.Proofs.Dag.Built

/-!
# Everything below and everything above a node

Both lists are cut out of a sort, of the graph or of the graph turned round, so their members stand
as they stand in it.

* `Lists`: a list of the nodes with some property, in an order that keeps to a relation.
* `WellFormed.lists_below`: what a sort leaves of the nodes that are reached from one of them.
* `WellFormed.allDependenciesOf_eq_ok`: what a node depends on, directly or not, each once.
* `WellFormed.allDependentsOf_eq_ok`: what depends on a node, directly or not, each once.
* `Built.below_and_above`: all this of every graph that can be built.
-/

namespace Rollout

/-- Members that pass a filter stand in what it leaves as they stood before. -/
theorem idxOf_filter_lt_iff {α : Type} [DecidableEq α] {p : α → Bool} {a b : α} (ha : p a = true)
    (hb : p b = true) (l : List α) :
    (l.filter p).idxOf a < (l.filter p).idxOf b ↔ l.idxOf a < l.idxOf b := by
  induction l with
  | nil => simp
  | cons c l ih =>
    by_cases hca : c = a
    · subst hca
      by_cases hcb : c = b
      · simp [hcb]
      · simp [ha, List.idxOf_cons_ne _ hcb]
    · by_cases hcb : c = b
      · subst hcb
        simp [hb]
      · cases hc : p c <;> simp [hc, List.idxOf_cons_ne _ hca, List.idxOf_cons_ne _ hcb, ih]

namespace Dag

variable {α : Type} [DecidableEq α]

/-- A list of everything with some property, in which nothing stands behind what it precedes. -/
structure Lists (property : α → Prop) (precedes : α → α → Prop) (l : List α) : Prop where
  /-- Everything is listed once. -/
  nodup : l.Nodup
  /-- It is listed exactly if it has the property. -/
  mem_iff : ∀ a, a ∈ l ↔ property a
  /-- Of two members the one that precedes the other one comes first. -/
  before : ∀ a ∈ l, ∀ b ∈ l, precedes a b → l.idxOf a < l.idxOf b

theorem allDependenciesOf_eq {d : Dag α} {n : α} (hn : n ∈ d.nodes) {order : List α}
    (h : d.sort = .ok order) : d.allDependenciesOf n = .ok (order.filter (· ∈ d.reach n)) := by
  unfold allDependenciesOf
  rw [reachOf_eq_ok hn, h]
  rfl

theorem allDependenciesOf_of_not_mem {d : Dag α} {n : α} (hn : n ∉ d.nodes) :
    d.allDependenciesOf n = .error (.missingNode n) := by
  unfold allDependenciesOf
  rw [reachOf_of_not_mem hn]
  rfl

/-- Of the sorted nodes those that are reached from `n` are left, each before what it needs. -/
theorem WellFormed.lists_below {d : Dag α} (hd : d.WellFormed) {order : List α}
    (h : d.sort = .ok order) (n : α) :
    Lists (d.Path n) d.Path (order.filter (· ∈ d.reach n)) where
  nodup := ((hd.simple.sort_perm h).nodup_iff.2 hd.nodup_nodes).filter _
  mem_iff m := by
    rw [List.mem_filter, decide_eq_true_eq, mem_reach_iff, (hd.simple.sort_perm h).mem_iff]
    exact and_iff_right_of_imp hd.simple.path_mem_nodes
  before a ha b hb hab := by
    have ha := (List.mem_filter.1 ha).2
    have hb := (List.mem_filter.1 hb).2
    apply (idxOf_filter_lt_iff (p := (· ∈ d.reach n)) ha hb order).2
    exact hd.simple.idxOf_lt_of_path h hab

theorem WellFormed.allDependenciesOf_eq_ok {d : Dag α} (hd : d.WellFormed) {n : α}
    (hn : n ∈ d.nodes) :
    ∃ l, d.allDependenciesOf n = .ok l ∧ l.Nodup ∧ ∀ m, m ∈ l ↔ d.Path n m := by
  obtain ⟨order, horder⟩ := hd.exists_sort
  have hlists := hd.lists_below horder n
  exact ⟨_, allDependenciesOf_eq hn horder, hlists.nodup, hlists.mem_iff⟩

theorem WellFormed.allDependentsOf_eq_ok {d : Dag α} (hd : d.WellFormed) {n : α}
    (hn : n ∈ d.nodes) :
    ∃ l, d.allDependentsOf n = .ok l ∧ l.Nodup ∧ ∀ m, m ∈ l ↔ d.Path m n := by
  have hn' : n ∈ d.transpose.nodes := by
    rw [nodes_transpose hd.simple]
    exact hn
  obtain ⟨l, hl, hnodup, hmem⟩ := hd.transpose.allDependenciesOf_eq_ok hn'
  exact ⟨l, hl, hnodup, fun m => (hmem m).trans (path_transpose_iff hd.simple)⟩

/-- A list by the paths of the graph turned round, told by the paths of the graph. -/
theorem Lists.of_transpose {d : Dag α} (hd : d.Simple) {n : α} {l : List α}
    (h : Lists (d.transpose.Path n) d.transpose.Path l) :
    Lists (fun m => d.Path m n) (fun a b => d.Path b a) l where
  nodup := h.nodup
  mem_iff m := (h.mem_iff m).trans (path_transpose_iff hd)
  before a ha b hb hba := h.before a ha b hb ((path_transpose_iff hd).2 hba)

/-- A name that is no node is refused. Below a node lie exactly the nodes that it depends on,
directly or not, each listed once and before all those of the list that it depends on itself. Above
it lie exactly those that depend on it, each after all those of the list that it depends on. Both
lists keep to the order of a sort, the second to that of the graph turned round, and the node is in
neither of them. -/
theorem Built.below_and_above {d : Dag α} (h : d.Built) (n : α) :
    (n ∉ d.nodes → d.allDependenciesOf n = .error (.missingNode n) ∧
      d.allDependentsOf n = .error (.missingNode n)) ∧
    (n ∈ d.nodes →
      (∃ below, d.allDependenciesOf n = .ok below ∧ n ∉ below ∧
        Lists (fun m => d.Path n m) (fun a b => d.Path a b) below ∧
        ∃ order, d.sort = .ok order ∧ below.Sublist order) ∧
      ∃ above, d.allDependentsOf n = .ok above ∧ n ∉ above ∧
        Lists (fun m => d.Path m n) (fun a b => d.Path b a) above ∧
        ∃ order, d.transpose.sort = .ok order ∧ above.Sublist order) := by
  have hd := h.wellFormed
  have hturned : n ∈ d.transpose.nodes ↔ n ∈ d.nodes := by rw [nodes_transpose hd.simple]
  constructor
  · intro hn
    exact ⟨allDependenciesOf_of_not_mem hn, allDependenciesOf_of_not_mem fun h => hn (hturned.1 h)⟩
  · intro hn
    obtain ⟨order, horder⟩ := hd.exists_sort
    obtain ⟨order', horder'⟩ := hd.transpose.exists_sort
    have hbelow := hd.lists_below horder n
    have habove := (hd.transpose.lists_below horder' n).of_transpose hd.simple
    constructor
    · refine ⟨_, allDependenciesOf_eq hn horder, ?_, hbelow, order, horder, List.filter_sublist⟩
      intro hself
      exact hd.acyclic n ((hbelow.mem_iff n).1 hself)
    · refine ⟨_, allDependenciesOf_eq (hturned.2 hn) horder', ?_, habove, order', horder',
        List.filter_sublist⟩
      intro hself
      exact hd.acyclic n ((habove.mem_iff n).1 hself)

/-- Three nodes in a row, of which the first one needs the last one too, and a node apart. -/
def shortcut : Dag Nat := ⟨[(1, [2, 3]), (2, [3]), (3, []), (4, [])]⟩

/-- The first node of the row needs the last one directly, and yet comes after the one between them
in the list of what lies above the last one. -/
theorem below_and_above_shortcut :
    ∃ d : Dag Nat, d.Built ∧ d.toDependencies = [(1, [2, 3]), (2, [3]), (3, []), (4, [])] ∧
      d.allDependentsOf 5 = .error (.missingNode 5) ∧
      ∃ above, d.allDependentsOf 3 = .ok above ∧ 1 ∈ above ∧ 2 ∈ above ∧ 4 ∉ above ∧
        above.idxOf 2 < above.idxOf 1 := by
  have hd : shortcut.Built :=
    built_of_ofDependencies [(1, [2, 3]), (2, [3]), (3, []), (4, [])] (by decide +kernel)
  obtain ⟨hmissing, -⟩ := hd.below_and_above 5
  obtain ⟨-, hlisted⟩ := hd.below_and_above 3
  obtain ⟨-, above, habove, -, hlists, -⟩ := hlisted (by decide)
  have h1 : 1 ∈ above := (hlists.mem_iff 1).2 (.edge (by decide))
  have h2 : 2 ∈ above := (hlists.mem_iff 2).2 (.edge (by decide))
  have h4 : 4 ∉ above := by
    intro h
    obtain ⟨c, first, -⟩ := ((hlists.mem_iff 4).1 h).exists_first
    exact absurd first List.not_mem_nil
  exact ⟨_, hd, rfl, (hmissing (by decide)).2, above, habove, h1, h2, h4,
    hlists.before 2 h2 1 h1 (.edge (by decide))⟩

end Dag

end Rollout

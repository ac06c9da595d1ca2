import Mathlib.Data.Prod.Lex
import Mathlib.Data.Sum.Order
import Rollout.Proofs.Dag.Built
import Rollout.Proofs.Dag.Counting

/-!
# The one order that a sort finds

A graph may have many orders in which each node comes before all it depends on. The sort finds the
one that is settled by its own places: first the nodes that nothing depends on, then each node as
soon as the last of its dependents has been placed, in the order in which that one lists it.

* `lastDependent?`, `precedence`: what settles the place of a node in an order.
* `precedence_append`: that does not change when more nodes are placed.
* `QueueOrder`: an order of the nodes in which it ascends. `QueueOrder.unique`: there is at most one.
* `Sorting.Ascends.next`, `Sorting.Ascends.run`: in a sort it ascends turn after turn.
* `Built.sort_queueOrder`: of every graph that can be built the sort finds this order.
-/

namespace Rollout

/-- In a list without repetitions places ascend. -/
theorem pairwise_idxOf {α : Type} [DecidableEq α] {l : List α} (hl : l.Nodup) :
    l.Pairwise fun a b => l.idxOf a < l.idxOf b := by
  refine List.pairwise_iff_getElem.2 fun i j hi hj hij => ?_
  rw [hl.idxOf_getElem i hi, hl.idxOf_getElem j hj]
  exact hij

namespace Dag

variable {α : Type} [DecidableEq α]

/-! ## What settles the place of a node -/

/-- The last node of `l` that depends on `n` directly. -/
def lastDependent? (d : Dag α) (l : List α) (n : α) : Option α :=
  (l.filter fun m => n ∈ d.dependencies m).getLast?

/-- What settles the place of `n` in the order `l`. Nodes without dependents come first, in
insertion order. Each other one goes by the place of the last of its dependents, and then by its
place among the dependencies of that one. -/
def precedence (d : Dag α) (l : List α) (n : α) : Nat ⊕ₗ Nat ×ₗ Nat :=
  match d.lastDependent? l n with
  | none => Sum.inlₗ (d.nodes.idxOf n)
  | some m => Sum.inrₗ (toLex (l.idxOf m, (d.dependencies m).idxOf n))

theorem mem_of_lastDependent? {d : Dag α} {l : List α} {n m : α}
    (h : d.lastDependent? l n = some m) : m ∈ l :=
  (List.mem_filter.1 (List.mem_of_getLast? h)).1

/-- Nodes placed behind all dependents of `n` do not change what settles its place. -/
theorem precedence_append {d : Dag α} {l later : List α} {n : α} (h : ∀ m ∈ later, ¬ d.Edge m n) :
    d.precedence (l ++ later) n = d.precedence l n := by
  have hlast : d.lastDependent? (l ++ later) n = d.lastDependent? l n := by
    have hnone : later.filter (fun m => n ∈ d.dependencies m) = [] :=
      List.filter_eq_nil_iff.2 fun m hm hmem => h m hm (of_decide_eq_true hmem)
    rw [lastDependent?, List.filter_append, hnone, List.append_nil, lastDependent?]
  rw [precedence, precedence, hlast]
  cases hm : d.lastDependent? l n with
  | none => rfl
  | some m =>
    simp only
    rw [List.idxOf_append_of_mem (mem_of_lastDependent? hm)]

/-- A node that the last placed one depends on goes by that one. -/
theorem precedence_snoc {d : Dag α} {l : List α} {n m : α} (hn : n ∉ l) (h : d.Edge n m) :
    d.precedence (l ++ [n]) m = Sum.inrₗ (toLex (l.length, (d.dependencies n).idxOf m)) := by
  have hlast : d.lastDependent? (l ++ [n]) m = some n := by
    have hone : [n].filter (fun k => m ∈ d.dependencies k) = [n] :=
      List.filter_cons_of_pos (decide_eq_true h)
    rw [lastDependent?, List.filter_append, hone, List.getLast?_concat]
  rw [precedence, hlast]
  simp only
  rw [List.idxOf_append_of_notMem hn, List.idxOf_cons_self, Nat.add_zero]

/-- What goes by a placed node comes before what goes by a later one. -/
theorem precedence_lt (d : Dag α) (l : List α) (n : α) (i : Nat) :
    d.precedence l n < Sum.inrₗ (toLex (l.length, i)) := by
  rw [precedence]
  cases h : d.lastDependent? l n with
  | none => exact Sum.Lex.inl_lt_inr _ _
  | some m =>
    have hlt := List.idxOf_lt_length_of_mem (mem_of_lastDependent? h)
    exact Sum.Lex.inr_lt_inr_iff.2 (Prod.Lex.toLex_lt_toLex.2 (.inl hlt))

/-! ## There is one order at most -/

/-- An order of the nodes, each before all it depends on, that goes by the precedence that it gives
to them. -/
structure QueueOrder (d : Dag α) (l : List α) : Prop where
  /-- It has each node once. -/
  perm : l.Perm d.nodes
  /-- Nodes come before what they depend on. -/
  before : ∀ a b, d.Edge a b → l.idxOf a < l.idxOf b
  /-- The precedence of the nodes ascends. -/
  ascends : l.Pairwise fun a b => d.precedence l a < d.precedence l b

namespace QueueOrder

variable {d : Dag α} {l l' placed rest rest' : List α} {a b : α}

/-- What a node goes by is settled by what stands before it. -/
theorem precedence_eq (hd : d.Simple) (h : d.QueueOrder (placed ++ a :: rest))
    (hl : (placed ++ rest').Nodup) :
    d.precedence (placed ++ rest') a = d.precedence placed a := by
  have hnodup : (placed ++ a :: rest).Nodup := h.perm.nodup_iff.2 hd.nodup_nodes
  have ha : a ∉ placed := fun hmem =>
    List.disjoint_of_nodup_append hnodup hmem List.mem_cons_self
  refine precedence_append fun m hm hedge => ?_
  -- The dependents of `a` stand before it, and each node stands once.
  have hmem : m ∈ placed ++ a :: rest := h.perm.mem_iff.2 hedge.mem_nodes
  have hlt := h.before m a hedge
  have hnot : m ∉ placed := fun hp => List.disjoint_of_nodup_append hl hp hm
  rw [List.idxOf_append_of_notMem ha, List.idxOf_append_of_notMem hnot, List.idxOf_cons_self] at hlt
  omega

/-- Where one order goes on with `a` and another one with `b`, `a` has precedence by the first. -/
theorem lt_of_head_ne (hd : d.Simple) (h : d.QueueOrder (placed ++ a :: rest))
    (h' : d.QueueOrder (placed ++ b :: rest')) (hne : a ≠ b) :
    d.precedence placed a < d.precedence placed b := by
  have hnodup := h.perm.nodup_iff.2 hd.nodup_nodes
  have hnodup' := h'.perm.nodup_iff.2 hd.nodup_nodes
  have hb : b ∈ rest := by
    have hnot : b ∉ placed := fun hp =>
      List.disjoint_of_nodup_append hnodup' hp List.mem_cons_self
    have hmem : b ∈ placed ++ a :: rest := (h.perm.trans h'.perm.symm).mem_iff.2 (by simp)
    rcases List.mem_append.1 hmem with hp | hmem
    · exact absurd hp hnot
    · exact (List.mem_cons.1 hmem).resolve_left (Ne.symm hne)
  have hlt := (List.pairwise_cons.1 (List.pairwise_append.1 h.ascends).2.1).1 b hb
  rwa [h.precedence_eq hd hnodup, h'.precedence_eq hd hnodup] at hlt

/-- Two such orders that begin alike go on alike. -/
theorem head_eq (hd : d.Simple) (h : d.QueueOrder (placed ++ a :: rest))
    (h' : d.QueueOrder (placed ++ b :: rest')) : a = b := by
  by_contra hne
  exact lt_asymm (h.lt_of_head_ne hd h' hne) (h'.lt_of_head_ne hd h (Ne.symm hne))

/-- There is one such order at most. -/
theorem unique (hd : d.Simple) (h : d.QueueOrder l) (h' : d.QueueOrder l') : l = l' := by
  have key : ∀ (rest rest' placed : List α), d.QueueOrder (placed ++ rest) →
      d.QueueOrder (placed ++ rest') → rest = rest' := by
    intro rest
    induction rest with
    | nil =>
      intro rest' placed h h'
      have hperm := (List.perm_append_left_iff placed).1 (h.perm.trans h'.perm.symm)
      exact (List.nil_perm.1 hperm).symm
    | cons a rest ih =>
      intro rest' placed h h'
      cases rest' with
      | nil =>
        have hperm := (List.perm_append_left_iff placed).1 (h.perm.trans h'.perm.symm)
        exact List.perm_nil.1 hperm
      | cons b rest' =>
        obtain rfl := h.head_eq hd h'
        rw [ih rest' (placed ++ [a]) (by simpa using h) (by simpa using h')]
  exact key l l' [] h h'

end QueueOrder

/-! ## The sort goes by it -/

namespace Sorting

/-- Sorted and queued nodes stand in the order of their precedence. -/
def Ascends (d : Dag α) (s : Sorting α) : Prop :=
  (s.sorted ++ s.queue).Pairwise fun a b => d.precedence s.sorted a < d.precedence s.sorted b

/-- The nodes that are queued at the start have no dependents. -/
theorem ascends_sorting {d : Dag α} (hd : d.Simple) : Ascends d d.sorting := by
  have hplaces : d.sorting.queue.Pairwise fun a b => d.nodes.idxOf a < d.nodes.idxOf b :=
    (pairwise_idxOf hd.nodup_nodes).sublist List.filter_sublist
  exact hplaces.imp fun hlt => Sum.Lex.inl_lt_inl_iff.2 hlt

/-- The nodes that a turn puts into the queue go by the node whose turn it is, and all others by
nodes from before. -/
theorem Ascends.next {d : Dag α} (hd : d.Simple) {s : Sorting α} (h : Ascends d s) (hs : Sound d s)
    {n : α} {rest : List α} (hq : s.queue = n :: rest) :
    Ascends d ((d.dependencies n).foldl release
      { s with queue := rest, sorted := s.sorted ++ [n] }) := by
  have hn := hs.head_not_mem hq
  obtain ⟨hsorted, hall, -⟩ := foldl_release_turn hd hq rfl
  have hold : ∀ m ∈ s.sorted ++ s.queue,
      d.precedence (s.sorted ++ [n]) m = d.precedence s.sorted m := by
    intro m hm
    refine precedence_append fun k hk hedge => hn ?_
    rw [← List.mem_singleton.1 hk]
    exact ((hs.mem_iff m).1 hm).2 k hedge
  have hnew : ∀ m ∈ (d.dependencies n).filter (s.count? · = some 1),
      d.precedence (s.sorted ++ [n]) m =
        Sum.inrₗ (toLex (s.sorted.length, (d.dependencies n).idxOf m)) :=
    fun m hm => precedence_snoc hn (List.mem_filter.1 hm).1
  rw [Ascends, hall, hsorted]
  refine List.pairwise_append.2 ⟨?_, ?_, fun a ha b hb => ?_⟩
  · refine List.Pairwise.imp_of_mem (fun {a b} ha hb hlt => ?_) h
    rw [hold a ha, hold b hb]
    exact hlt
  · have hplaces := (pairwise_idxOf (hd.nodup_dependencies n)).sublist
      (List.filter_sublist (p := fun m => s.count? m = some 1))
    refine List.Pairwise.imp_of_mem (fun {a b} ha hb hlt => ?_) hplaces
    rw [hnew a ha, hnew b hb]
    exact Sum.Lex.inr_lt_inr_iff.2 (Prod.Lex.toLex_lt_toLex.2 (.inr ⟨rfl, hlt⟩))
  · rw [hold a ha, hnew b hb]
    exact precedence_lt d s.sorted a _

theorem Ascends.run {d : Dag α} (hd : d.Simple) {s : Sorting α} (h : Ascends d s)
    (hs : Sound d s) : Ascends d (s.run d) := by
  fun_induction Sorting.run d s with
  | case1 s hq => exact h
  | case2 s n rest hq ih => exact ih (h.next hd hs hq) (hs.next hq hd)

end Sorting

theorem WellFormed.queueOrder_of_sort {d : Dag α} (hd : d.WellFormed) {l : List α}
    (h : d.sort = .ok l) : d.QueueOrder l where
  perm := hd.simple.sort_perm h
  before _ _ := hd.simple.idxOf_lt_of_edge h
  ascends := by
    obtain ⟨-, hempty⟩ := (Sorting.sound_sorting hd.simple).run hd.simple
    have hascends := (Sorting.ascends_sorting hd.simple).run hd.simple
      (Sorting.sound_sorting hd.simple)
    obtain ⟨-, rfl⟩ := sort_eq_ok_iff.1 h
    rw [Sorting.Ascends, hempty, List.append_nil] at hascends
    exact hascends

/-- A sort succeeds, and what it finds is the one order of the nodes, each before all it depends on,
in which nodes without dependents come first, as they were inserted, and each other one goes by the
place of the last of its dependents and then by its place among the dependencies of that one. On the
way no count falls below zero: a node that is released has a count above zero. -/
theorem Built.sort_queueOrder {d : Dag α} (h : d.Built) :
    (∃ l, d.sort = .ok l) ∧
    (∀ l, d.sort = .ok l ↔ d.QueueOrder l) ∧
    Sorting.Passes d (d.sorting.run d) [] ∧
    ∀ s waiting, Sorting.Passes d s waiting →
      (waiting.foldl Sorting.release s).run d = d.sorting.run d ∧
      (∀ n c, s.count? n = some c → 0 ≤ c) ∧
      ∀ n ∈ waiting, ∃ c, s.count? n = some c ∧ 0 < c := by
  have hd := h.wellFormed
  obtain ⟨l, hl⟩ := hd.exists_sort
  refine ⟨⟨l, hl⟩, fun l' => ⟨hd.queueOrder_of_sort, fun hl' => ?_⟩, Sorting.passes_run .start,
    fun s waiting hs => ⟨hs.run_eq, fun n c => hs.nonneg hd.simple,
      fun n => hs.positive hd.simple⟩⟩
  rw [hl, (hd.queueOrder_of_sort hl).unique hd.simple hl']

/-- Two nodes wait for the first one, and one of them for the second one too. -/
def overtaken : Dag Nat := ⟨[(1, [3, 4]), (2, [3]), (3, []), (4, [])]⟩

/-- Of the two nodes that wait for others the one inserted last comes first. -/
theorem sort_queueOrder_overtaken :
    ∃ d : Dag Nat, d.Built ∧ d.toDependencies = [(1, [3, 4]), (2, [3]), (3, []), (4, [])] ∧
      d.sort = .ok [1, 2, 4, 3] ∧ d.QueueOrder [1, 2, 4, 3] ∧
      ∃ s, Sorting.Passes d s [3, 4] ∧ ∃ c, s.count? 3 = some c ∧ 0 < c := by
  have hd : overtaken.Built :=
    built_of_ofDependencies [(1, [3, 4]), (2, [3]), (3, []), (4, [])] (by decide +kernel)
  have hsort : overtaken.sort = .ok [1, 2, 4, 3] := by with_unfolding_all rfl
  obtain ⟨-, horder, -, hpasses⟩ := hd.sort_queueOrder
  have hturn := Sorting.Passes.start.take (show overtaken.sorting.queue = [1, 2] from rfl)
  exact ⟨_, hd, rfl, hsort, (horder _).1 hsort, _, hturn,
    (hpasses _ _ hturn).2.2 3 (by decide)⟩

end Dag

end Rollout

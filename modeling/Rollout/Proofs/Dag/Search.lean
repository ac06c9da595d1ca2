import Mathlib
import Rollout.Proofs.Dag.Indexed

/-!
# The search ends

A node may stand in the queue of a search many times, once for each edge that leads to it from what
was seen, so the queue does not get shorter with each turn. But a node is seen once, and what it
depends on is queued then and never again: the search takes one turn for each edge below its start.

* `Search.next?` and `Search.after?`: one turn on the order and the map of a graph, and some turns.
* `Simple.after?_explore`: the turns that the search takes from anywhere on, and where they lead.
* `sum_degree_le`: the edges that start at some nodes are at most all edges.
* `Built.search_ends`: the search from a node of a graph that can be built ends, and what it finds
  are the nodes at the ends of chains of edges.
-/

namespace Rollout.Dag

variable {α : Type}

/-- A search under way. -/
structure Search (α : Type) where
  /-- The nodes seen so far. -/
  seen : List α
  /-- The nodes to look at, oldest first. -/
  queue : List α
  deriving DecidableEq, Repr

variable [DecidableEq α]

namespace Search

/-- The search from what the map binds to a node, before its first turn. -/
def start? (s : Indexed α) (n : α) : Option (Search α) := (s.at? n).map fun deps => ⟨[], deps⟩

/-- One turn. A node comes off the queue, and unless it was seen before, what the map binds to it
goes to the end of the queue. There is none where the queue is empty or nothing is bound. -/
def next? (s : Indexed α) (x : Search α) : Option (Search α) :=
  match x.queue with
  | [] => none
  | n :: rest =>
    if n ∈ x.seen then some ⟨x.seen, rest⟩
    else (s.at? n).map fun deps => ⟨x.seen ++ [n], rest ++ deps⟩

/-- The search after exactly so many turns. -/
def after? (s : Indexed α) : Nat → Search α → Option (Search α)
  | 0, x => some x
  | turns + 1, x => (x.next? s).bind (after? s turns)

end Search

/-- How many edges start at a node. -/
def degree (d : Dag α) (n : α) : Nat := (d.dependencies n).length

/-! ## Turns -/

/-- From what was seen and queued the search takes a turn for each node in the queue, and one for
each edge that starts at a node that it sees then. -/
theorem Simple.after?_explore {d : Dag α} (hd : d.Simple) (seen queue : List α)
    (hq : ∀ n ∈ queue, n ∈ d.nodes) :
    ∃ found, d.explore seen queue = seen ++ found ∧ found.Nodup ∧ (∀ n ∈ found, n ∉ seen) ∧
      Search.after? d.indexed (queue.length + (found.map d.degree).sum) ⟨seen, queue⟩ =
        some ⟨seen ++ found, []⟩ := by
  fun_induction explore d seen queue with
  | case1 seen =>
    exact ⟨[], by simp, .nil, fun _ hn => absurd hn List.not_mem_nil, by simp [Search.after?]⟩
  | case2 seen n rest hn ih =>
    obtain ⟨found, hfound, hnodup, hnew, hturns⟩ := ih fun m hm => hq m (List.mem_cons_of_mem _ hm)
    refine ⟨found, hfound, hnodup, hnew, ?_⟩
    have hnext : Search.next? d.indexed ⟨seen, n :: rest⟩ = some ⟨seen, rest⟩ := if_pos hn
    rw [List.length_cons, Nat.add_right_comm, Search.after?, hnext, Option.bind_some]
    exact hturns
  | case3 seen n rest hn ih =>
    have hnode : n ∈ d.nodes := hq n List.mem_cons_self
    obtain ⟨found, hfound, hnodup, hnew, hturns⟩ := ih fun m hm => by
      rcases List.mem_append.1 hm with hm | hm
      · exact hq m (List.mem_cons_of_mem _ hm)
      · exact hd.closed n m hm
    have hn' : n ∉ found := fun h => hnew n h (by simp)
    refine ⟨n :: found, by rw [hfound, List.append_assoc, List.singleton_append],
      List.nodup_cons.2 ⟨hn', hnodup⟩, fun m hm => ?_, ?_⟩
    · rcases List.mem_cons.1 hm with rfl | hm
      · exact hn
      · exact fun h => hnew m hm (List.mem_append_left _ h)
    · have hnext : Search.next? d.indexed ⟨seen, n :: rest⟩ =
          some ⟨seen ++ [n], rest ++ d.dependencies n⟩ := by
        rw [Search.next?]
        simp only [if_neg hn, at?_of_mem hnode, Option.map_some]
      -- The turn takes `n` off the queue and puts as many nodes there as edges start at it.
      have hcount : (n :: rest).length + ((n :: found).map d.degree).sum =
          (rest ++ d.dependencies n).length + (found.map d.degree).sum + 1 := by
        simp only [List.length_cons, List.length_append, List.map_cons, List.sum_cons, degree]
        omega
      rw [hcount, Search.after?, hnext, Option.bind_some, hturns, List.append_assoc,
        List.singleton_append]

/-- The edges that start at some nodes are at most all edges. -/
theorem sum_degree_le {d : Dag α} (hd : d.nodes.Nodup) {ns : List α} (hns : ns.Nodup)
    (hsub : ns ⊆ d.nodes) : (ns.map d.degree).sum ≤ d.edges.length := by
  have hall : d.edges.length = (d.nodes.map d.degree).sum := by
    rw [edges_eq hd, List.length_flatMap]
    simp only [List.length_map]
    rfl
  obtain ⟨l, hperm, hsublist⟩ := hns.subperm hsub
  rw [hall, ← (hperm.map d.degree).sum_eq]
  exact (hsublist.map d.degree).sum_le_sum fun _ _ => Nat.zero_le _

/-! ## The search from a node -/

/-- The search from a node takes a turn for each edge that starts at the node or at one it finds. -/
theorem Simple.after?_start {d : Dag α} (hd : d.Simple) {a : α} (ha : a ∈ d.nodes) :
    (d.reach a).Nodup ∧ ∃ start, Search.start? d.indexed a = some start ∧
      start.after? d.indexed ((a :: d.reach a).map d.degree).sum = some ⟨d.reach a, []⟩ := by
  obtain ⟨found, hfound, hnodup, -, hturns⟩ :=
    hd.after?_explore [] (d.dependencies a) fun m hm => hd.closed a m hm
  rw [List.nil_append] at hfound hturns
  obtain rfl : d.reach a = found := hfound
  refine ⟨hnodup, ⟨[], d.dependencies a⟩, ?_, hturns⟩
  rw [Search.start?, at?_of_mem ha, Option.map_some]

/-- The search from a node never asks for a node that is not there, and it ends: it takes one turn
for each edge that starts at the node or at one it finds, which are not more than there are edges.
It finds, each once, the nodes at the ends of chains of one edge or more. So that is how the
question for a path is answered; no node has one to itself, and only a name that is no node is
refused. -/
theorem Built.search_ends {d : Dag α} (h : d.Built) (a b : α) :
    (a ∈ d.nodes → ∃ start found,
      Search.start? d.indexed a = some start ∧
      start.after? d.indexed ((a :: found).map d.degree).sum = some ⟨found, []⟩ ∧
      ((a :: found).map d.degree).sum ≤ d.edges.length ∧
      found.Nodup ∧ (∀ n, n ∈ found ↔ Relation.TransGen d.Edge a n) ∧
      d.hasPath a b = .ok (decide (b ∈ found))) ∧
    (d.hasPath a b = .ok true ↔ Relation.TransGen d.Edge a b) ∧
    d.hasPath a a ≠ .ok true ∧
    (d.hasPath a b = .error (.missingNode a) ↔ a ∉ d.nodes) ∧
    d.indexed.hasPath? a b = some (d.hasPath a b) := by
  have hd := h.wellFormed
  have htrue : ∀ b, d.hasPath a b = .ok true ↔ Relation.TransGen d.Edge a b := by
    intro b
    rw [hasPath_eq_true_iff, and_iff_right_of_imp Path.mem_nodes, path_iff_transGen]
  have hanswer : a ∈ d.nodes → d.hasPath a b = .ok (decide (b ∈ d.reach a)) := by
    intro ha
    rw [hasPath, reachOf_eq_ok ha]
    rfl
  refine ⟨fun ha => ?_, htrue b, fun hself => ?_, ⟨fun herror ha => ?_, fun ha => ?_⟩,
    hasPath?_indexed hd.simple a b⟩
  · obtain ⟨hnodup, start, hstart, hturns⟩ := hd.simple.after?_start ha
    have hself : a ∉ d.reach a := fun hmem => hd.acyclic a (mem_reach_iff.1 hmem)
    have hnodes : a :: d.reach a ⊆ d.nodes :=
      List.cons_subset.2 ⟨ha, fun n hn => hd.simple.path_mem_nodes (mem_reach_iff.1 hn)⟩
    exact ⟨start, d.reach a, hstart, hturns,
      sum_degree_le hd.nodup_nodes (List.nodup_cons.2 ⟨hself, hnodup⟩) hnodes, hnodup,
      fun n => mem_reach_iff.trans path_iff_transGen, hanswer ha⟩
  · exact hd.acyclic a (path_iff_transGen.2 ((htrue a).1 hself))
  · rw [hanswer ha] at herror
    cases herror
  · exact hasPath_of_not_mem ha b

/-- A node with three dependencies that all need a fifth node, which needs a sixth one. -/
def fan : Dag Nat := ⟨[(1, [2, 3, 4]), (2, [5]), (3, [5]), (4, [5]), (5, [6]), (6, [])]⟩

/-- From the first node the fifth one is queued three times and seen once; the search takes seven
turns, as many as there are edges. -/
theorem search_ends_fan :
    ∃ d : Dag Nat, d.Built ∧ d.edges.length = 7 ∧
      (∃ start found, Search.start? d.indexed 1 = some start ∧
        start.after? d.indexed ((1 :: found).map d.degree).sum = some ⟨found, []⟩ ∧
        6 ∈ found ∧ found.Nodup) ∧
      d.hasPath 1 6 = .ok true ∧ d.hasPath 5 5 ≠ .ok true ∧
      d.hasPath 7 1 = .error (.missingNode 7) := by
  have hd : fan.Built :=
    built_of_ofDependencies [(1, [2, 3, 4]), (2, [5]), (3, [5]), (4, [5]), (5, [6]), (6, [])]
      (by decide +kernel)
  have hpath : Relation.TransGen fan.Edge 1 6 :=
    .tail (.tail (.single (show fan.Edge 1 2 by decide)) (show fan.Edge 2 5 by decide))
      (show fan.Edge 5 6 by decide)
  obtain ⟨hsearch, htrue, -⟩ := hd.search_ends 1 6
  obtain ⟨start, found, hstart, hturns, -, hnodup, hfound, -⟩ := hsearch (by decide)
  obtain ⟨-, -, hself, -⟩ := hd.search_ends 5 5
  obtain ⟨-, -, -, hmissing, -⟩ := hd.search_ends 7 1
  exact ⟨fan, hd, by decide, ⟨start, found, hstart, hturns, (hfound 6).2 hpath, hnodup⟩,
    htrue.2 hpath, hself, hmissing.2 (by decide)⟩

end Rollout.Dag

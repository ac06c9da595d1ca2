import Rollout.Dag.Indexed
import Rollout.Proofs.Dag.Built
import Rollout.Proofs.Data.Except

/-!
# Queries on the order and the map of a graph

Every look-up in the order and the map of a simple graph finds its key, and every query answers as
it does on the graph in one piece.

* `at?_indexed`: what the map of a graph binds.
* `explore?_indexed`, `drain?_indexed`: the two loops end without a fault.
* `reachOf?_indexed`, `sort?_indexed` and the like: a lemma for each query.
-/

namespace Rollout.Dag

variable {α : Type}

theorem Indexed.select?_eq_some {test : α → Option Bool} {accept : α → Bool} {l : List α}
    (h : ∀ a ∈ l, test a = some (accept a)) : select? test l = some (l.filter accept) := by
  induction l with
  | nil => rfl
  | cons a l ih =>
    have ih := ih fun b hb => h b (List.mem_cons_of_mem _ hb)
    rw [select?, h a List.mem_cons_self, ih, List.filter_cons]
    rfl

theorem targets_eq (d : Dag α) : d.edges.map (·.2) = d.entries.flatMap (·.2) := by
  rw [edges, List.map_flatMap]
  simp only [List.map_map, Function.comp_def, List.map_id']

variable [DecidableEq α]

/-! ## Look-ups -/

theorem at?_indexed (d : Dag α) (n : α) :
    d.indexed.at? n = if n ∈ d.nodes then some (d.dependencies n) else none := by
  by_cases hn : n ∈ d.nodes
  · obtain ⟨deps, hdeps⟩ := exists_lookup_eq_some hn
    rw [if_pos hn, dependencies, hdeps, Option.getD_some]
    exact hdeps
  · rw [if_neg hn]
    cases h : d.indexed.at? n with
    | none => rfl
    | some deps => exact absurd (Indexed.mem_nodes_of_at? h) hn

theorem at?_of_mem {d : Dag α} {n : α} (hn : n ∈ d.nodes) :
    d.indexed.at? n = some (d.dependencies n) := by
  rw [at?_indexed, if_pos hn]

theorem at?_of_not_mem {d : Dag α} {n : α} (hn : n ∉ d.nodes) : d.indexed.at? n = none := by
  rw [at?_indexed, if_neg hn]

theorem at?_eq_some_iff {d : Dag α} {n : α} {deps : List α} :
    d.indexed.at? n = some deps ↔ n ∈ d.nodes ∧ d.dependencies n = deps := by
  rw [at?_indexed]
  split <;> simp_all

theorem hasKey_indexed (d : Dag α) (n : α) : d.indexed.hasKey n = decide (n ∈ d.nodes) := by
  rw [Indexed.hasKey, at?_indexed]
  split <;> simp_all

/-! ## Queries that look at every node once -/

theorem toDependencies?_indexed {d : Dag α} (hd : d.nodes.Nodup) :
    d.indexed.toDependencies? = some d.toDependencies := by
  have h : ∀ n ∈ d.nodes, (d.indexed.at? n).map (n, ·) = some (n, d.dependencies n) := by
    intro n hn
    rw [at?_of_mem hn, Option.map_some]
  rw [toDependencies, entries_eq hd]
  exact Option.mapM_eq_some h

theorem independentNodes_indexed (d : Dag α) :
    d.indexed.independentNodes = d.independentNodes := by
  rw [Indexed.independentNodes, independentNodes, targets_eq]
  rfl

theorem leaves?_indexed (d : Dag α) : d.indexed.leaves? = some d.leaves := by
  refine Indexed.select?_eq_some fun n hn => ?_
  rw [at?_of_mem hn, Option.map_some]

theorem dependenciesOf_indexed (d : Dag α) (n : α) :
    d.indexed.dependenciesOf n = d.dependenciesOf n := by
  by_cases hn : n ∈ d.nodes
  · rw [Indexed.dependenciesOf, at?_of_mem hn, dependenciesOf, if_pos hn]
  · rw [Indexed.dependenciesOf, at?_of_not_mem hn, dependenciesOf, if_neg hn]

theorem dependentsOf?_indexed (d : Dag α) (n : α) :
    d.indexed.dependentsOf? n = some (d.dependentsOf n) := by
  rw [Indexed.dependentsOf?, dependentsOf, hasKey_indexed]
  by_cases hn : n ∈ d.nodes
  · have h : Indexed.select? (fun m => (d.indexed.at? m).map (n ∈ ·)) d.indexed.order =
        some (d.dependents n) := by
      refine Indexed.select?_eq_some fun m hm => ?_
      rw [at?_of_mem hm, Option.map_some]
    rw [if_pos (by simpa using hn), if_pos hn, h, Option.map_some]
  · rw [if_neg (by simpa using hn), if_neg hn]

theorem lookup_zipIdx {l : List α} {n : α} (hn : n ∈ l) (start : Nat) :
    (l.zipIdx start).lookup n = some (l.idxOf n + start) := by
  induction l generalizing start with
  | nil => exact absurd hn List.not_mem_nil
  | cons a l ih =>
    by_cases h : n = a
    · subst h
      simp
    · have hl : n ∈ l := (List.mem_cons.1 hn).resolve_left h
      rw [List.zipIdx_cons, lookup_cons_of_ne h, ih hl, List.idxOf_cons_ne l (Ne.symm h)]
      congr 1
      omega

theorem edgeNumbers?_indexed {d : Dag α} (hd : d.Simple) :
    d.indexed.edgeNumbers? =
      some (d.edges.map fun e => (d.nodes.idxOf e.1, d.nodes.idxOf e.2)) := by
  rw [Indexed.edgeNumbers?, toDependencies?_indexed hd.nodup_nodes]
  refine Option.mapM_eq_some fun e he => ?_
  have hedge : d.Edge e.1 e.2 := (mem_edges_iff hd.nodup_nodes).1 he
  have hsource := lookup_zipIdx hedge.mem_nodes 0
  have htarget := lookup_zipIdx (hd.closed _ _ hedge) 0
  simp only [indexed, hsource, htarget, Nat.add_zero]
  rfl

/-! ## The search -/

theorem explore?_indexed {d : Dag α} (hd : d.Simple) (seen queue : List α)
    (hq : ∀ n ∈ queue, n ∈ d.nodes) :
    d.indexed.explore? seen queue = some (d.explore seen queue) := by
  fun_induction explore d seen queue with
  | case1 => rw [Indexed.explore?]
  | case2 seen n rest hn ih =>
    rw [Indexed.explore?, if_pos hn]
    exact ih fun m hm => hq m (List.mem_cons_of_mem _ hm)
  | case3 seen n rest hn ih =>
    -- What enters the queue is a dependency of a node, so it is a node.
    have hrest : ∀ m ∈ rest ++ d.dependencies n, m ∈ d.nodes := by
      intro m hm
      rcases List.mem_append.1 hm with hm | hm
      · exact hq m (List.mem_cons_of_mem _ hm)
      · exact hd.closed n m hm
    rw [Indexed.explore?, if_neg hn, ← ih hrest]
    split
    · next deps h =>
      obtain ⟨-, rfl⟩ := at?_eq_some_iff.1 h
      rfl
    · next h =>
      rw [at?_of_mem (hq n List.mem_cons_self)] at h
      cases h

theorem reachOf?_indexed {d : Dag α} (hd : d.Simple) (n : α) :
    d.indexed.reachOf? n = some (d.reachOf n) := by
  by_cases hn : n ∈ d.nodes
  · have h := explore?_indexed hd [] (d.dependencies n) fun m hm => hd.closed n m hm
    rw [Indexed.reachOf?, at?_of_mem hn, reachOf_eq_ok hn]
    simp only [h, Option.map_some]
    rfl
  · rw [Indexed.reachOf?, at?_of_not_mem hn, reachOf_of_not_mem hn]

theorem hasPath?_indexed {d : Dag α} (hd : d.Simple) (source target : α) :
    d.indexed.hasPath? source target = some (d.hasPath source target) := by
  rw [Indexed.hasPath?, reachOf?_indexed hd, Option.map_some, hasPath]

/-! ## The sort -/

theorem foldl_increment (ns : List α) (counts : List (α × Int)) :
    ns.foldl Indexed.increment counts = counts.map fun e => (e.1, e.2 + (ns.count e.1 : Int)) := by
  induction ns generalizing counts with
  | nil => simp
  | cons n ns ih =>
    rw [List.foldl_cons, ih, Indexed.increment, List.map_map]
    refine List.map_congr_left fun e _ => ?_
    rw [Function.comp_apply, List.count_cons]
    by_cases h : e.1 = n
    · simp only [h, beq_self_eq_true, if_true]
      congr 1
      omega
    · simp [h, Ne.symm h]

theorem counts?_indexed {d : Dag α} (hd : d.nodes.Nodup) :
    d.indexed.counts? = some d.sorting.counts := by
  have hstep : ∀ n ∈ d.nodes, ∀ counts : List (α × Int),
      (d.indexed.at? n).map (·.foldl Indexed.increment counts) =
        some ((d.dependencies n).foldl Indexed.increment counts) := by
    intro n hn counts
    rw [at?_of_mem hn, Option.map_some]
  have hall := Option.foldlM_eq_some hstep (b := d.nodes.map (·, 0))
  refine hall.trans (congrArg some ?_)
  rw [← List.foldl_flatMap, foldl_increment, List.map_map]
  refine List.map_congr_left fun n _ => ?_
  rw [Function.comp_apply, inDegree, targets_eq, entries_eq hd, List.flatMap_map, Int.zero_add]

theorem mem_queue_foldl_release {ns : List α} {t : Sorting α} {n : α}
    (h : n ∈ (ns.foldl Sorting.release t).queue) : n ∈ t.queue ∨ n ∈ ns := by
  induction ns generalizing t with
  | nil => exact .inl h
  | cons m ns ih =>
    rcases ih h with h | h
    · rw [Sorting.queue_release] at h
      split at h
      · rcases List.mem_append.1 h with h | h
        · exact .inl h
        · exact .inr (List.mem_cons.2 (.inl (List.mem_singleton.1 h)))
      · exact .inl h
    · exact .inr (List.mem_cons_of_mem _ h)

theorem drain?_indexed {d : Dag α} (hd : d.Simple) {t : Sorting α}
    (hq : ∀ n ∈ t.queue, n ∈ d.nodes) : d.indexed.drain? t = some (t.run d) := by
  fun_induction Sorting.run d t with
  | case1 t hempty =>
    rw [Indexed.drain?]
    split
    · rfl
    · next h => cases hempty.symm.trans h
  | case2 t n rest hcons ih =>
    have hrest : ∀ m ∈ ((d.dependencies n).foldl Sorting.release
        { t with queue := rest, sorted := t.sorted ++ [n] }).queue, m ∈ d.nodes := by
      intro m hm
      rcases mem_queue_foldl_release hm with hm | hm
      · exact hq m (hcons ▸ List.mem_cons_of_mem _ hm)
      · exact hd.closed n m hm
    have hn : d.indexed.at? n = some (d.dependencies n) :=
      at?_of_mem (hq n (hcons ▸ List.mem_cons_self))
    rw [Indexed.drain?]
    split
    · next h => cases hcons.symm.trans h
    · next n' rest' h =>
      obtain ⟨rfl, rfl⟩ := List.cons.inj (hcons.symm.trans h)
      rw [hn]
      exact ih hrest

/-- The sort finds every key it looks up, also when it ends with nodes left over. -/
theorem sort?_indexed {d : Dag α} (hd : d.Simple) : d.indexed.sort? = some d.sort := by
  have hstart := Sorting.sound_sorting hd
  obtain ⟨hend, -⟩ := hstart.run hd
  have hqueue : Indexed.select? (fun n => (d.sorting.counts.lookup n).map (· = 0))
      d.indexed.order = some d.sorting.queue := by
    refine Indexed.select?_eq_some fun n hn => ?_
    have hcount : d.sorting.counts.lookup n = some (d.inDegree n : Int) :=
      lookup_map_self (fun n => (d.inDegree n : Int)) hn
    rw [hcount, Option.map_some]
    simp only [Int.natCast_eq_zero]
  have hdrain := drain?_indexed hd (t := d.sorting) fun n hn => (List.mem_filter.1 hn).1
  have hleft : Indexed.select?
      (fun n => ((Sorting.run d d.sorting).count? n).map (0 < ·)) d.indexed.order =
      some (d.nodes.filter fun n => 0 < ((Sorting.run d d.sorting).count? n).getD 0) := by
    refine Indexed.select?_eq_some fun n hn => ?_
    rw [hend.counted n hn, Option.map_some, Option.getD_some]
  rw [Indexed.sort?, counts?_indexed hd.nodup_nodes]
  simp only [Option.bind_eq_bind, Option.bind_some, hqueue]
  rw [show ({ counts := d.sorting.counts, queue := d.sorting.queue, sorted := [] } : Sorting α) =
    d.sorting from rfl, hdrain, Option.bind_some, sort, hleft]
  have hlen : d.indexed.order.length = d.size := length_nodes d
  simp only [hlen]
  split <;> rfl

theorem validate?_indexed {d : Dag α} (hd : d.Simple) :
    d.indexed.validate? = some d.validate := by
  rw [Indexed.validate?, validate, independentNodes_indexed, sort?_indexed hd]
  split
  · rfl
  · rcases d.sort with (_ | _) | _ <;> rfl

end Rollout.Dag

import Rollout.Proofs.Dag.InPlace

/-!
# Order and map after any operations

* `Built.perform`, `WellFormed.perform`: what an edit keeps. `WellFormed.performAll?_indexed`: what
  a list of edits does.
* `Indexed.Intact`: what holds of an order and a map that belong together.
* `Indexed.Answers`: no query faults, and each answers for the graph in one piece.
* `Indexed.Reached.intact`: both after any operations, refused ones included.
-/

namespace Rollout.Dag

variable {α : Type}

/-- A refused edit leaves the order and the map as they were. -/
theorem answer_eq_of_error {d : Dag α} {result : Except (Refusal α) (Dag α)} {r : Refusal α}
    (h : (d.answer result).1 = .error r) : (d.answer result).2 = d.indexed := by
  cases result with
  | ok e => cases h
  | error _ => rfl

variable [DecidableEq α]

/-! ## Edits one after the other -/

theorem Built.perform {d e : Dag α} (hd : d.Built) {edit : Edit α} (h : d.perform edit = .ok e) :
    e.Built := by
  cases edit with
  | addNode n => exact hd.addNode h
  | ensureNode n =>
    cases h
    exact hd.ensureNode n
  | removeNode n => exact hd.removeNode h
  | discardNode n =>
    cases h
    exact hd.discardNode n
  | addEdge source target => exact hd.addEdge h
  | removeEdge source target => exact hd.removeEdge h
  | transpose =>
    cases h
    exact hd.transpose
  | restrict ns => exact hd.restrict h
  | reduce =>
    cases h
    exact hd.reduce

/-- A list of edits on the order and the map of a graph that can be built never faults, and it ends
as it does on the graph in one piece. -/
theorem Built.performAll?_indexed {d : Dag α} (hd : d.Built) (edits : List (Edit α)) :
    d.indexed.performAll? edits = some ((edits.foldlM Dag.perform d).map indexed) := by
  induction edits generalizing d with
  | nil => rfl
  | cons edit edits ih =>
    rw [Indexed.performAll?, hd.wellFormed.perform_indexed, List.foldlM_cons, Option.bind_eq_bind,
      Option.bind_some]
    cases h : d.perform edit with
    | error r => rfl
    | ok e => exact ih (hd.perform h)

theorem foldlM_edits (entries : List (α × List α)) :
    (Edit.ofDependencies entries).foldlM perform empty = ofDependencies entries := by
  have hedges : (entries.flatMap fun e => e.2.map fun m => Edit.addEdge e.1 m) =
      (entries.flatMap fun e => e.2.map (e.1, ·)).map fun e => .addEdge e.1 e.2 := by
    simp only [List.map_flatMap, List.map_map]
    rfl
  rw [Edit.ofDependencies, hedges, List.foldlM_append, List.foldlM_map, ofDependencies, addNodes,
    List.foldlM_map]
  refine congrArg (_ >>= ·) (funext fun d => ?_)
  rw [addEdges, List.foldlM_map]
  rfl

theorem ofDependencies?_eq (entries : List (α × List α)) :
    Indexed.ofDependencies? entries = some ((ofDependencies entries).map indexed) := by
  rw [← foldlM_edits]
  exact Built.empty.performAll?_indexed _

/-- Whatever has been done, the order and the map are those of a graph that can be built. -/
theorem Indexed.Reached.exists_built {s : Indexed α} (h : s.Reached) :
    ∃ d : Dag α, d.Built ∧ s = d.indexed := by
  induction h with
  | empty => exact ⟨Dag.empty, .empty, rfl⟩
  | ofDependencies built =>
    rw [ofDependencies?_eq, Option.some.injEq, Except.map_eq_ok_iff] at built
    obtain ⟨d, hd, rfl⟩ := built
    exact ⟨d, .ofDependencies hd, rfl⟩
  | @edit _ _ edit _ _ performed ih =>
    obtain ⟨d, hd, rfl⟩ := ih
    rw [hd.wellFormed.perform_indexed, Option.some.injEq] at performed
    cases he : d.perform edit with
    | error r =>
      rw [he] at performed
      cases performed
      exact ⟨d, hd, rfl⟩
    | ok e =>
      rw [he] at performed
      cases performed
      exact ⟨e, hd.perform he, rfl⟩

/-! ## What holds of them -/

namespace Indexed

/-- The map binds `a` to a list that contains `b`. -/
def Needs (s : Indexed α) (a b : α) : Prop := ∃ deps, s.at? a = some deps ∧ b ∈ deps

/-- An order and a map that belong together, without cycles. -/
structure Intact (s : Indexed α) : Prop where
  /-- Each node stands in the order once. -/
  nodup_order : s.order.Nodup
  /-- Each key is bound once. -/
  nodup_keys : (s.index.map (·.1)).Nodup
  /-- The nodes in the order are the keys of the map. -/
  mem_order_iff : ∀ n, n ∈ s.order ↔ ∃ deps, s.at? n = some deps
  /-- Each dependency of a node stands in its list once. -/
  nodup_dependencies : ∀ n deps, s.at? n = some deps → deps.Nodup
  /-- Every dependency is a node. -/
  closed : ∀ a b, s.Needs a b → b ∈ s.order
  /-- No chain of dependencies leads back to where it began. -/
  acyclic : ∀ n, ¬ Relation.TransGen s.Needs n n

/-- No query on the order and the map faults, and each answers as it does on the graph. -/
structure Answers (s : Indexed α) (d : Dag α) : Prop where
  toDependencies : s.toDependencies? = some d.toDependencies
  independentNodes : s.independentNodes = d.independentNodes
  leaves : s.leaves? = some d.leaves
  dependenciesOf : ∀ n, s.dependenciesOf n = d.dependenciesOf n
  dependentsOf : ∀ n, s.dependentsOf? n = some (d.dependentsOf n)
  hasPath : ∀ a b, s.hasPath? a b = some (d.hasPath a b)
  allDependenciesOf : ∀ n, s.allDependenciesOf? n = some (d.allDependenciesOf n)
  allDependentsOf : ∀ n, s.allDependentsOf? n = some (d.allDependentsOf n)
  sort : s.sort? = some d.sort
  validate : s.validate? = some d.validate
  transpose : s.transpose? = some d.transpose.indexed
  restrict : ∀ ns, s.restrict? ns = some ((d.restrict ns).map indexed)
  reduce : s.reduce? = some d.reduce.indexed
  edgeNumbers : s.edgeNumbers? = some (d.edges.map fun e => (d.nodes.idxOf e.1, d.nodes.idxOf e.2))

end Indexed

theorem needs_indexed_iff {d : Dag α} {a b : α} : d.indexed.Needs a b ↔ d.Edge a b := by
  constructor
  · rintro ⟨deps, hdeps, hb⟩
    obtain ⟨-, rfl⟩ := at?_eq_some_iff.1 hdeps
    exact hb
  · intro h
    exact ⟨d.dependencies a, at?_of_mem h.mem_nodes, h⟩

theorem WellFormed.intact_indexed {d : Dag α} (hd : d.WellFormed) : d.indexed.Intact where
  nodup_order := hd.nodup_nodes
  nodup_keys := hd.nodup_nodes
  mem_order_iff n := by
    simp only [at?_eq_some_iff, exists_and_left, exists_eq', and_true]
    exact Iff.rfl
  nodup_dependencies n deps h := by
    obtain ⟨-, rfl⟩ := at?_eq_some_iff.1 h
    exact hd.nodup_dependencies n
  closed a b h := hd.closed a b (needs_indexed_iff.1 h)
  acyclic n h := by
    have hmono := Relation.TransGen.mono fun a b => (needs_indexed_iff (d := d) (a := a) (b := b)).1
    exact hd.acyclic n (path_iff_transGen.2 (hmono n n h))

theorem WellFormed.answers_indexed {d : Dag α} (hd : d.WellFormed) : d.indexed.Answers d where
  toDependencies := toDependencies?_indexed hd.nodup_nodes
  independentNodes := independentNodes_indexed d
  leaves := leaves?_indexed d
  dependenciesOf := dependenciesOf_indexed d
  dependentsOf := dependentsOf?_indexed d
  hasPath := hasPath?_indexed hd.simple
  allDependenciesOf := allDependenciesOf?_indexed hd.simple
  allDependentsOf := allDependentsOf?_indexed hd.simple
  sort := sort?_indexed hd.simple
  validate := validate?_indexed hd.simple
  transpose := transpose?_indexed hd.nodup_nodes
  restrict := restrict?_indexed hd.simple
  reduce := reduce?_indexed hd.simple
  edgeNumbers := edgeNumbers?_indexed hd.simple

/-- Whatever has been done, order and map belong together and have no cycle. No operation and no
query faults on them, and an operation that is refused leaves them as they are. They are those of a
graph that can be built, and whatever is done to them next comes out as on that graph. -/
theorem Indexed.Reached.intact {s : Indexed α} (h : s.Reached) :
    s.Intact ∧
      (∀ edit, ∃ answer t, s.perform edit = some (answer, t) ∧
        ∀ r, answer = .error r → t = s) ∧
      (∀ entries : List (α × List α), (ofDependencies? entries).isSome) ∧
      ∃ d : Dag α, d.Built ∧ s = d.indexed ∧ s.Answers d ∧
        ∀ edit, s.perform edit = some (d.answer (d.perform edit)) := by
  obtain ⟨d, hd, rfl⟩ := h.exists_built
  have hwell := hd.wellFormed
  have hperform := hwell.perform_indexed
  refine ⟨hwell.intact_indexed, fun edit => ?_, fun entries => ?_, d, hd, rfl,
    hwell.answers_indexed, hperform⟩
  · exact ⟨_, _, hperform edit, fun r hr => answer_eq_of_error hr⟩
  · rw [ofDependencies?_eq]
    rfl

/-- An edge that would close a cycle has been refused, and another graph was put in the place of
this one before. -/
theorem Indexed.intact_refused :
    (⟨[2, 1], [(2, []), (1, [2])]⟩ : Indexed Nat).Reached ∧
      (⟨[2, 1], [(2, []), (1, [2])]⟩ : Indexed Nat).Intact := by
  have hbuilt : Indexed.ofDependencies? [(2, [1]), (1, [])] =
      some (.ok (⟨[2, 1], [(2, [1]), (1, [])]⟩ : Indexed Nat)) := by
    with_unfolding_all rfl
  have hturned : Indexed.perform ⟨[2, 1], [(2, [1]), (1, [])]⟩ .transpose =
      some (.ok (), (⟨[2, 1], [(2, []), (1, [2])]⟩ : Indexed Nat)) := rfl
  have hrefused : Indexed.perform ⟨[2, 1], [(2, []), (1, [2])]⟩ (.addEdge 2 1) =
      some (.error (.cycle [2, 1]), (⟨[2, 1], [(2, []), (1, [2])]⟩ : Indexed Nat)) := by
    with_unfolding_all rfl
  have hreached := ((Indexed.Reached.ofDependencies hbuilt).edit hturned).edit hrefused
  exact ⟨hreached, hreached.intact.1⟩

end Rollout.Dag

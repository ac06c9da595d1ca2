import Mathlib.Data.List.Forall2
import Rollout.Proofs.Dag.NewEdge
import Rollout.Proofs.Dag.Same

/-!
# Graphs made of entries

A graph is made of a list of nodes with their dependencies: first all nodes are added, then all
edges, one by one. Each edge is judged by the graph that there is so far, but in the end it does not
matter in which order they came: as long as all of them together close no cycle, no part of them
does.

* `Declares`, `Admissible`: what entries say, and the entries that a graph can be made of.
* `Rearranged`: the same entries in another order. `Rearranged.admissible_iff`: that changes nothing.
* `addNodes_eq_ok_iff`: which nodes can be added.
* `WellFormed.addEdges_eq_ok`, `WellFormed.exists_addEdges`: what is there when edges have been
  added, and when they can be.
* `ofDependencies_eq_ok_iff`: the graph that is made of admissible entries.
* `Rearranged.same`: entries in another order make the same graph.
* `WellFormed.ofDependencies_entries`: the entries of a graph make this graph again.
-/

namespace Rollout

/-! ## First occurrences -/

section FirstOccurrences

variable {α : Type} [DecidableEq α]

theorem eraseDups_of_nodup {l : List α} (hl : l.Nodup) : l.eraseDups = l := by
  induction l with
  | nil => rfl
  | cons a l ih =>
    obtain ⟨ha, hl⟩ := List.nodup_cons.1 hl
    have hfilter : l.filter (fun b => !b == a) = l := by
      apply List.filter_eq_self.2
      intro b hb
      have hba : b ≠ a := fun h => ha (h ▸ hb)
      simpa using hba
    rw [List.eraseDups_cons, hfilter, ih hl]

theorem eraseDups_snoc (l : List α) (a : α) :
    (l ++ [a]).eraseDups = if a ∈ l then l.eraseDups else l.eraseDups ++ [a] := by
  rw [List.eraseDups_append]
  by_cases ha : a ∈ l <;> simp [List.removeAll, List.eraseDups_cons, ha]

theorem nodup_eraseDups (l : List α) : l.eraseDups.Nodup := by
  induction l using List.reverseRecOn with
  | nil => exact List.nodup_nil
  | append_singleton l a ih =>
    rw [eraseDups_snoc]
    split
    · exact ih
    · next ha =>
      apply ih.append (List.nodup_singleton a)
      simpa using ha

/-- Repetitions may be taken out of a front part first. -/
theorem eraseDups_append_eraseDups (l l' : List α) :
    (l.eraseDups ++ l').eraseDups = (l ++ l').eraseDups := by
  have hrest : l'.removeAll l.eraseDups = l'.removeAll l := by
    unfold List.removeAll
    apply List.filter_congr
    intro a _
    simp
  rw [List.eraseDups_append, List.eraseDups_append, eraseDups_of_nodup (nodup_eraseDups l), hrest]

end FirstOccurrences

namespace Dag

variable {α : Type}

/-! ## Entries -/

/-- Some entry of `a` lists `b` among the dependencies. -/
def Declares (entries : List (α × List α)) (a b : α) : Prop := ∃ e ∈ entries, e.1 = a ∧ b ∈ e.2

/-- Entries that a graph can be made of. -/
@[mk_iff]
structure Admissible (entries : List (α × List α)) : Prop where
  /-- No two of them are for the same node. -/
  nodup : (entries.map (·.1)).Nodup
  /-- Everything that something depends on has an entry. -/
  closed : ∀ a b, Declares entries a b → b ∈ entries.map (·.1)
  /-- No chain of dependencies leads back to where it began. -/
  acyclic : ∀ a, ¬ Relation.TransGen (Declares entries) a a

theorem mem_edges_iff_declares {entries : List (α × List α)} {a b : α} :
    (a, b) ∈ (Dag.mk entries).edges ↔ Declares entries a b := by
  simp [edges, Declares]

theorem Declares.mem_names {entries : List (α × List α)} {a b : α} (h : Declares entries a b) :
    a ∈ entries.map (·.1) := by
  obtain ⟨e, he, rfl, -⟩ := h
  exact List.mem_map.2 ⟨e, he, rfl⟩

/-- The same entries in another order, each with its dependencies in another order. -/
def Rearranged (entries entries' : List (α × List α)) : Prop :=
  ∃ turned, entries.Perm turned ∧
    List.Forall₂ (fun e e' => e.1 = e'.1 ∧ e.2.Perm e'.2) turned entries'

theorem Rearranged.names_perm {entries entries' : List (α × List α)}
    (h : Rearranged entries entries') : (entries.map (·.1)).Perm (entries'.map (·.1)) := by
  obtain ⟨turned, hperm, hall⟩ := h
  have hnames : turned.map (·.1) = entries'.map (·.1) := by
    clear hperm
    induction hall with
    | nil => rfl
    | cons hhead _ ih => rw [List.map_cons, List.map_cons, hhead.1, ih]
  exact hnames ▸ hperm.map _

theorem Rearranged.declares_iff {entries entries' : List (α × List α)}
    (h : Rearranged entries entries') {a b : α} :
    Declares entries a b ↔ Declares entries' a b := by
  obtain ⟨turned, hperm, hall⟩ := h
  have hturned : Declares entries a b ↔ Declares turned a b :=
    exists_congr fun e => and_congr_left fun _ => hperm.mem_iff
  rw [hturned]
  clear hperm hturned
  induction hall with
  | nil => rfl
  | cons hhead _ ih =>
    unfold Declares at ih ⊢
    simp only [List.mem_cons, exists_eq_or_imp, ih, hhead.1, hhead.2.mem_iff]

theorem Rearranged.admissible_iff {entries entries' : List (α × List α)}
    (h : Rearranged entries entries') : Admissible entries ↔ Admissible entries' := by
  have hdeclares : Declares entries = Declares entries' := by
    funext a b
    exact propext h.declares_iff
  rw [Dag.admissible_iff, Dag.admissible_iff, hdeclares, h.names_perm.nodup_iff]
  simp only [h.names_perm.mem_iff]

variable [DecidableEq α]

theorem declares_entries_iff {d : Dag α} (hd : d.nodes.Nodup) {a b : α} :
    Declares d.entries a b ↔ d.Edge a b := by
  rw [← mem_edges_iff_declares]
  exact mem_edges_iff hd

/-- The targets of the edges that come from a node are its dependencies. -/
theorem map_target_edges_from {d : Dag α} (hd : d.nodes.Nodup) (n : α) :
    (d.edges.filter (·.1 = n)).map (·.2) = d.dependencies n := by
  obtain ⟨entries⟩ := d
  simp only [nodes, edges, dependencies] at hd ⊢
  induction entries with
  | nil => rfl
  | cons e l ih =>
    obtain ⟨m, deps⟩ := e
    obtain ⟨hm, hl⟩ := List.nodup_cons.1 hd
    rw [List.flatMap_cons, List.filter_append, List.map_append, ih hl]
    by_cases h : n = m
    · subst h
      have hrest : l.lookup n = none := by
        apply List.lookup_eq_none_iff.2
        intro e he
        have hne : n ≠ e.1 := fun heq => hm (List.mem_map.2 ⟨e, he, heq.symm⟩)
        simpa using hne
      simp [List.filter_map, Function.comp_def, hrest]
    · simp [List.filter_map, Function.comp_def, Ne.symm h, lookup_cons_of_ne h]

/-! ## Adding nodes -/

/-- Nodes can be added if none of them is there yet and none comes twice. -/
theorem addNodes_eq_ok_iff {d e : Dag α} (hd : d.nodes.Nodup) {ns : List α} :
    d.addNodes ns = .ok e ↔ (d.nodes ++ ns).Nodup ∧ e = ⟨d.entries ++ ns.map (·, [])⟩ := by
  unfold addNodes
  induction ns generalizing d with
  | nil =>
    rw [List.append_nil, List.map_nil, List.append_nil, List.foldlM_nil]
    exact ⟨fun h => ⟨hd, (Except.ok.inj h).symm⟩, fun h => h.2 ▸ rfl⟩
  | cons n ns ih =>
    rw [List.foldlM_cons, Except.bind_eq_ok_iff]
    by_cases hn : n ∈ d.nodes
    · have hrefused : d.addNode n = .error (.duplicateNode n) := if_pos hn
      have htwice : ¬ (d.nodes ++ n :: ns).Nodup := fun h =>
        List.disjoint_of_nodup_append h hn List.mem_cons_self
      simp [hrefused, htwice]
    · have hadded : d.addNode n = .ok ⟨d.entries ++ [(n, [])]⟩ := if_neg hn
      have hnext : (nodes ⟨d.entries ++ [(n, [])]⟩).Nodup := by
        rw [nodes_snoc]
        apply hd.append (List.nodup_singleton n)
        simpa using hn
      simp only [hadded, Except.ok.injEq, exists_eq_left', ih hnext, nodes_snoc,
        List.append_assoc, List.singleton_append, List.map_cons]

/-! ## Adding edges -/

/-- An edge that was added stands at the end of its list, unless it was there already. -/
theorem WellFormed.dependencies_addEdge {d e : Dag α} (hd : d.WellFormed) {source target : α}
    (h : d.addEdge source target = .ok e) (n : α) :
    e.dependencies n = (d.dependencies n ++ if source = n then [target] else []).eraseDups := by
  have hself : (d.dependencies n).eraseDups = d.dependencies n :=
    eraseDups_of_nodup (hd.nodup_dependencies n)
  obtain ⟨hs, -, ⟨hold, rfl⟩ | ⟨hnew, rfl, -⟩⟩ := addEdge_eq_ok h
  · by_cases hn : source = n
    · subst hn
      rw [if_pos rfl, eraseDups_snoc, if_pos (show target ∈ e.dependencies source from hold), hself]
    · rw [if_neg hn, List.append_nil, hself]
  · rw [dependencies_link hs]
    by_cases hn : source = n
    · subst hn
      have hnot : target ∉ d.dependencies source := hnew
      rw [if_pos rfl, if_pos rfl, eraseDups_snoc, if_neg hnot, hself]
    · rw [if_neg (Ne.symm hn), if_neg hn, List.append_nil, hself]

theorem nodes_addEdge {d e : Dag α} {source target : α} (h : d.addEdge source target = .ok e) :
    e.nodes = d.nodes := by
  obtain ⟨-, -, ⟨-, rfl⟩ | ⟨-, rfl, -⟩⟩ := addEdge_eq_ok h
  · rfl
  · exact nodes_link d source target

theorem WellFormed.edge_addEdge_iff {d e : Dag α} (hd : d.WellFormed) {source target : α}
    (h : d.addEdge source target = .ok e) {a b : α} :
    e.Edge a b ↔ d.Edge a b ∨ (a, b) = (source, target) := by
  rw [Edge, hd.dependencies_addEdge h, List.mem_eraseDups, List.mem_append, Prod.mk.injEq]
  by_cases ha : source = a
  · simp [ha, Edge]
  · simp [ha, Ne.symm ha, Edge]

/-- When edges have been added one by one, each of them leads from node to node, and each node lists
what it listed before and then what is new, in the order in which it came. -/
theorem WellFormed.addEdges_eq_ok {d e : Dag α} (hd : d.WellFormed) {es : List (α × α)}
    (h : d.addEdges es = .ok e) :
    e.WellFormed ∧ e.nodes = d.nodes ∧ (∀ x ∈ es, x.1 ∈ d.nodes ∧ x.2 ∈ d.nodes) ∧
      ∀ n, e.dependencies n =
        (d.dependencies n ++ (es.filter (·.1 = n)).map (·.2)).eraseDups := by
  unfold addEdges at h
  induction es generalizing d with
  | nil =>
    cases h
    refine ⟨hd, rfl, nofun, fun n => ?_⟩
    rw [List.filter_nil, List.map_nil, List.append_nil]
    exact (eraseDups_of_nodup (hd.nodup_dependencies n)).symm
  | cons x es ih =>
    rw [List.foldlM_cons, Except.bind_eq_ok_iff] at h
    obtain ⟨next, hnext, h⟩ := h
    obtain ⟨hwf, hnodes, hends, hdeps⟩ := ih (hd.addEdge hnext) h
    have hsame := nodes_addEdge hnext
    rw [hsame] at hnodes hends
    obtain ⟨hs, ht, -⟩ := addEdge_eq_ok hnext
    refine ⟨hwf, hnodes, List.forall_mem_cons.2 ⟨⟨hs, ht⟩, hends⟩, fun n => ?_⟩
    rw [hdeps n, hd.dependencies_addEdge hnext, eraseDups_append_eraseDups, List.append_assoc]
    by_cases hn : x.1 = n <;> simp [hn]

/-- Edges between nodes can be added if with all of them there is still no cycle: then there is
none on the way either. -/
theorem WellFormed.exists_addEdges {d : Dag α} (hd : d.WellFormed) {es : List (α × α)}
    (hends : ∀ x ∈ es, x.1 ∈ d.nodes ∧ x.2 ∈ d.nodes)
    (hacyclic : ∀ n, ¬ Relation.TransGen (fun a b => d.Edge a b ∨ (a, b) ∈ es) n n) :
    ∃ e, d.addEdges es = .ok e := by
  unfold addEdges
  induction es generalizing d with
  | nil => exact ⟨d, rfl⟩
  | cons x es ih =>
    obtain ⟨hx, hends⟩ := List.forall_mem_cons.1 hends
    have hnext : ∃ next, d.addEdge x.1 x.2 = .ok next := by
      by_cases hold : d.Edge x.1 x.2
      · refine ⟨d, ?_⟩
        rw [Dag.addEdge, if_neg (not_not.2 hx.1), if_neg (not_not.2 hx.2),
          if_pos (show x.2 ∈ d.dependencies x.1 from hold)]
      · refine ⟨_, (hd.addEdge_new hx.1 hx.2 hold).2 fun hback => hacyclic x.1 ?_⟩
        -- A way back together with the edge would be a cycle in the end.
        have hfirst : Relation.TransGen (fun a b => d.Edge a b ∨ (a, b) ∈ x :: es) x.1 x.2 :=
          .single (.inr List.mem_cons_self)
        rcases hback with heq | hpath
        · rwa [← heq] at hfirst
        · have hsub : d.Edge ≤ fun a b => d.Edge a b ∨ (a, b) ∈ x :: es := fun _ _ => Or.inl
          exact hfirst.trans (Relation.TransGen.mono hsub _ _ (path_iff_transGen.1 hpath))
    obtain ⟨next, hnext⟩ := hnext
    rw [List.foldlM_cons, hnext]
    apply ih (hd.addEdge hnext)
    · rwa [nodes_addEdge hnext]
    · intro n hn
      have hsub : (fun a b => next.Edge a b ∨ (a, b) ∈ es) ≤
          fun a b => d.Edge a b ∨ (a, b) ∈ x :: es := by
        intro a b hab
        rw [hd.edge_addEdge_iff hnext, or_assoc] at hab
        exact hab.imp_right List.mem_cons.2
      exact hacyclic n (Relation.TransGen.mono hsub _ _ hn)

/-! ## The graph of some entries -/

theorem wellFormed_bare {d : Dag α} (hd : d.nodes.Nodup) : d.bare.WellFormed where
  nodup_nodes := by rwa [nodes_bare]
  nodup_dependencies n := by
    rw [dependencies_bare]
    exact List.nodup_nil
  closed a b h := by
    rw [Edge, dependencies_bare] at h
    exact absurd h List.not_mem_nil
  acyclic n h := by
    obtain ⟨c, first, -⟩ := h.exists_first
    rw [Edge, dependencies_bare] at first
    exact List.not_mem_nil first

/-- A graph is made of entries in two strides: the nodes without edges, then the edges. -/
theorem ofDependencies_eq_ok {entries : List (α × List α)} {d : Dag α} :
    ofDependencies entries = .ok d ↔
      (entries.map (·.1)).Nodup ∧ (bare ⟨entries⟩).addEdges (edges ⟨entries⟩) = .ok d := by
  have hbare : (⟨empty.entries ++ (entries.map (·.1)).map (·, [])⟩ : Dag α) = bare ⟨entries⟩ := by
    simp [bare, empty]
  rw [ofDependencies, Except.bind_eq_ok_iff]
  simp only [addNodes_eq_ok_iff wellFormed_empty.nodup_nodes, nodes_empty, List.nil_append, hbare]
  constructor
  · rintro ⟨start, ⟨hnodup, rfl⟩, h⟩
    exact ⟨hnodup, h⟩
  · rintro ⟨hnodup, h⟩
    exact ⟨_, ⟨hnodup, rfl⟩, h⟩

/-- The graph that admissible entries make. -/
def ofEntries (entries : List (α × List α)) : Dag α :=
  ⟨entries.map fun e => (e.1, e.2.eraseDups)⟩

theorem nodes_ofEntries (entries : List (α × List α)) :
    (ofEntries entries).nodes = entries.map (·.1) := by
  unfold ofEntries nodes
  rw [List.map_map]
  rfl

theorem dependencies_ofEntries (entries : List (α × List α)) (n : α) :
    (ofEntries entries).dependencies n = (dependencies ⟨entries⟩ n).eraseDups := by
  unfold ofEntries dependencies
  rw [lookup_map_value fun _ (deps : List α) => deps.eraseDups]
  cases entries.lookup n <;> simp

theorem edge_ofEntries_iff {entries : List (α × List α)} (h : (entries.map (·.1)).Nodup) {a b : α} :
    (ofEntries entries).Edge a b ↔ Declares entries a b := by
  have hraw : b ∈ dependencies ⟨entries⟩ a ↔ Declares entries a b :=
    (declares_entries_iff (d := ⟨entries⟩) h).symm
  rw [Edge, dependencies_ofEntries, List.mem_eraseDups, hraw]

theorem path_ofEntries_iff {entries : List (α × List α)} (h : (entries.map (·.1)).Nodup) {a b : α} :
    (ofEntries entries).Path a b ↔ Relation.TransGen (Declares entries) a b :=
  path_iff_transGen_of_edge fun _ _ => edge_ofEntries_iff h

/-- When all edges could be added, they lead from entry to entry, and this graph has come out. -/
theorem addEdges_bare_eq_ok {entries : List (α × List α)} {d : Dag α}
    (hnodup : (entries.map (·.1)).Nodup)
    (h : (bare ⟨entries⟩).addEdges (edges ⟨entries⟩) = .ok d) :
    d.WellFormed ∧ d = ofEntries entries ∧
      ∀ a b, Declares entries a b → b ∈ entries.map (·.1) := by
  obtain ⟨hwf, hnodes, hends, hdeps⟩ := (wellFormed_bare (d := ⟨entries⟩) hnodup).addEdges_eq_ok h
  rw [nodes_bare] at hnodes
  refine ⟨hwf, ?_, fun a b hab => ?_⟩
  · apply ext_views
    · rwa [nodes_ofEntries]
    · rw [hnodes, nodes_ofEntries]
      rfl
    · intro n _
      rw [hdeps, dependencies_bare, List.nil_append, map_target_edges_from hnodup,
        dependencies_ofEntries]
  · have hb := (hends (a, b) (mem_edges_iff_declares.2 hab)).2
    rwa [nodes_bare] at hb

/-- A graph can be made of exactly the admissible entries. It has their nodes in their order, each
with its dependencies in theirs, repetitions left out. -/
theorem ofDependencies_eq_ok_iff {entries : List (α × List α)} {d : Dag α} :
    ofDependencies entries = .ok d ↔ Admissible entries ∧ d = ofEntries entries := by
  rw [ofDependencies_eq_ok]
  constructor
  · rintro ⟨hnodup, h⟩
    obtain ⟨hwf, rfl, hclosed⟩ := addEdges_bare_eq_ok hnodup h
    exact ⟨⟨hnodup, hclosed, fun a ha => hwf.acyclic a ((path_ofEntries_iff hnodup).2 ha)⟩, rfl⟩
  · rintro ⟨hadm, rfl⟩
    refine ⟨hadm.nodup, ?_⟩
    have hbare : (bare ⟨entries⟩).WellFormed := wellFormed_bare hadm.nodup
    have hadded : ∃ d, (bare ⟨entries⟩).addEdges (edges ⟨entries⟩) = .ok d := by
      apply hbare.exists_addEdges
      · rintro ⟨a, b⟩ hab
        have hdeclared := mem_edges_iff_declares.1 hab
        rw [nodes_bare]
        exact ⟨hdeclared.mem_names, hadm.closed a b hdeclared⟩
      · intro n hn
        have hsub : (fun a b => (bare ⟨entries⟩).Edge a b ∨ (a, b) ∈ edges ⟨entries⟩) ≤
            Declares entries := by
          rintro a b (hab | hab)
          · rw [Edge, dependencies_bare] at hab
            exact absurd hab List.not_mem_nil
          · exact mem_edges_iff_declares.1 hab
        exact hadm.acyclic n (Relation.TransGen.mono hsub _ _ hn)
    obtain ⟨d, hd⟩ := hadded
    obtain ⟨-, rfl, -⟩ := addEdges_bare_eq_ok hadm.nodup hd
    exact hd

theorem exists_ofDependencies_iff {entries : List (α × List α)} :
    (∃ d, ofDependencies entries = .ok d) ↔ Admissible entries := by
  simp only [ofDependencies_eq_ok_iff, exists_and_left, exists_eq, and_true]

/-! ## Made again -/

/-- In whatever order the entries come, the graphs that are made of them are equal. -/
theorem Rearranged.same {entries entries' : List (α × List α)} (h : Rearranged entries entries')
    {d d' : Dag α} (hd : ofDependencies entries = .ok d) (hd' : ofDependencies entries' = .ok d') :
    (d == d') = true := by
  have hs := (wellFormed_ofDependencies hd).simple
  have hs' := (wellFormed_ofDependencies hd').simple
  obtain ⟨hadm, rfl⟩ := ofDependencies_eq_ok_iff.1 hd
  obtain ⟨hadm', rfl⟩ := ofDependencies_eq_ok_iff.1 hd'
  refine (hs.same_iff hs').2 ⟨fun n => ?_, fun a b => ?_⟩
  · rw [nodes_ofEntries, nodes_ofEntries]
    exact h.names_perm.mem_iff
  · rw [edge_ofEntries_iff hadm.nodup, edge_ofEntries_iff hadm'.nodup]
    exact h.declares_iff

theorem WellFormed.admissible {d : Dag α} (hd : d.WellFormed) : Admissible d.entries where
  nodup := hd.nodup_nodes
  closed a b h := hd.closed a b ((declares_entries_iff hd.nodup_nodes).1 h)
  acyclic a h := by
    have hpath : d.Path a a := by
      apply (path_iff_transGen_of_edge fun _ _ => (declares_entries_iff hd.nodup_nodes).symm).2
      exact h
    exact hd.acyclic a hpath

/-- The entries of a graph make this graph again, the order of its lists included. -/
theorem WellFormed.ofDependencies_entries {d : Dag α} (hd : d.WellFormed) :
    ofDependencies d.entries = .ok d := by
  refine ofDependencies_eq_ok_iff.2 ⟨hd.admissible, ?_⟩
  have hentries : d.entries.map (fun e => (e.1, e.2.eraseDups)) = d.entries := by
    refine (List.map_congr_left fun e he => ?_).trans (List.map_id _)
    have hnodup : e.2.Nodup := by
      rw [← dependencies_of_mem_entries hd.nodup_nodes he]
      exact hd.nodup_dependencies e.1
    rw [eraseDups_of_nodup hnodup]
    rfl
  unfold ofEntries
  rw [hentries]

end Dag

end Rollout

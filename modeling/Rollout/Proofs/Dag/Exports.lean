import Rollout.Dag.Export
import Rollout.Proofs.Dag.Entries
import Rollout.Proofs.Data.Table
import Rollout.Proofs.Text.Digits

/-!
# Graphs are told by their exports

As an object, a graph is told up to the order of its nodes: the entries make an equal graph again.
As a text in the DOT language it is told with all its orders. Any text can be the name of a node:
labels can be read back, and no name can end the line it stands in.

* `WellFormed.ofDependencies_perm`: the entries of a graph, in whatever order.
* `IsLine`, `eq_of_join_eq`: a text in lines is told by them.
* `readLabel_flatMap_labelChar`: a label is read back.
* `nodeLine_inj`, `edgeLine_inj`: the lines of a text in the DOT language are told by what they are
  for.
* `WellFormed.toDot_inj`: so the whole text is told by nodes and edges.
* `Built.exports_determine`: both exports of the graphs that can be built.
-/

namespace Rollout.Dag

/-! ## Entries in another order -/

section Entries

variable {α : Type}

theorem rearranged_of_perm {entries entries' : List (α × List α)} (h : entries.Perm entries') :
    Rearranged entries entries' :=
  ⟨entries', h, List.forall₂_same.2 fun _ _ => ⟨rfl, .refl _⟩⟩

variable [DecidableEq α]

/-- The entries of a graph make an equal graph, in whatever order they come. -/
theorem WellFormed.ofDependencies_perm {d : Dag α} (hd : d.WellFormed)
    {entries : List (α × List α)} (h : d.entries.Perm entries) :
    ∃ e, ofDependencies entries = .ok e ∧ (e == d) = true := by
  have hturned := rearranged_of_perm h
  obtain ⟨e, he⟩ := exists_ofDependencies_iff.2 (hturned.admissible_iff.1 hd.admissible)
  exact ⟨e, he, (rearranged_of_perm h.symm).same he hd.ofDependencies_entries⟩

/-- A graph is told by its nodes and its edges, each in their order. -/
theorem ext_edges {d e : Dag α} (hd : d.nodes.Nodup) (hnodes : e.nodes = d.nodes)
    (hedges : e.edges = d.edges) : e = d := by
  have he : e.nodes.Nodup := hnodes ▸ hd
  refine ext_views hd hnodes fun n _ => ?_
  rw [← map_target_edges_from he, ← map_target_edges_from hd, hedges]

end Entries

/-! ## Lines -/

/-- Where a character comes up for the first time, two texts that are equal are cut alike. -/
theorem append_cons_inj {α : Type} {a : α} {x x' y y' : List α} (hx : a ∉ x) (hx' : a ∉ x')
    (h : x ++ a :: y = x' ++ a :: y') : x = x' ∧ y = y' := by
  rcases List.append_eq_append_iff.1 h with ⟨t, rfl, ht⟩ | ⟨t, rfl, ht⟩
  · cases t with
    | nil => simpa using ht
    | cons c t =>
      obtain ⟨rfl, -⟩ := List.cons.inj ht
      exact absurd (by simp) hx'
  · cases t with
    | nil => simpa [eq_comm] using ht
    | cons c t =>
      obtain ⟨rfl, -⟩ := List.cons.inj ht
      exact absurd (by simp) hx

/-- A text whose only line break is its last character. -/
def IsLine (s : String) : Prop := ∃ body : List Char, '\n' ∉ body ∧ s.toList = body ++ ['\n']

/-- Texts put together are told apart again if each of them is a line. -/
theorem eq_of_join_eq {ls ls' : List String} (hls : ∀ s ∈ ls, IsLine s)
    (hls' : ∀ s ∈ ls', IsLine s) (h : String.join ls = String.join ls') : ls = ls' := by
  replace h := congrArg String.toList h
  rw [String.toList_join, String.toList_join] at h
  induction ls generalizing ls' with
  | nil =>
    cases ls' with
    | nil => rfl
    | cons s' ls' =>
      obtain ⟨body, -, hs'⟩ := hls' s' List.mem_cons_self
      simp [hs'] at h
  | cons s ls ih =>
    obtain ⟨hs, hls⟩ := List.forall_mem_cons.1 hls
    obtain ⟨body, hbody, hs⟩ := hs
    cases ls' with
    | nil => simp [hs] at h
    | cons s' ls' =>
      obtain ⟨hs', hls'⟩ := List.forall_mem_cons.1 hls'
      obtain ⟨body', hbody', hs'⟩ := hs'
      rw [List.flatMap_cons, List.flatMap_cons, hs, hs', List.append_assoc, List.append_assoc,
        List.singleton_append, List.singleton_append] at h
      -- The first line break of either text is the end of its first line.
      obtain ⟨rfl, hrest⟩ := append_cons_inj hbody hbody' h
      have hline : s = s' := String.toList_injective (hs.trans hs'.symm)
      rw [hline, ih hls hls' hrest]

/-! ## Labels -/

/-- Reads a label: a backslash and `l` are a line break, and any other character behind a backslash
is itself. -/
def readLabel : List Char → List Char
  | '\\' :: 'l' :: rest => '\n' :: readLabel rest
  | '\\' :: c :: rest => c :: readLabel rest
  | c :: rest => c :: readLabel rest
  | [] => []

theorem readLabel_labelChar (c : Char) (rest : List Char) :
    readLabel (labelChar c ++ rest) = c :: readLabel rest := by
  by_cases hquote : c = '"'
  · subst hquote
    rfl
  by_cases hslash : c = '\\'
  · subst hslash
    rfl
  by_cases hbreak : c = '\n'
  · subst hbreak
    rfl
  · have hplain : labelChar c = [c] := by simp [labelChar, hquote, hslash, hbreak]
    rw [hplain, List.singleton_append, readLabel]
    · simp [hslash]
    · simp [hslash]

/-- A label is read back, whatever the name. -/
theorem readLabel_flatMap_labelChar (name : List Char) :
    readLabel (name.flatMap labelChar) = name := by
  induction name with
  | nil => rfl
  | cons c name ih => rw [List.flatMap_cons, readLabel_labelChar, ih]

theorem break_not_mem_labelChar (c : Char) : '\n' ∉ labelChar c := by
  unfold labelChar
  split
  · next h =>
    intro hmem
    simp only [List.mem_cons, List.not_mem_nil, or_false] at hmem
    rcases hmem with hmem | rfl
    · cases hmem
    · simp at h
  · split
    · decide
    · next h =>
      intro hmem
      obtain rfl := List.mem_singleton.1 hmem
      simp at h

/-! ## The lines of a graph -/

theorem toList_nodeLine (i : Nat) (name : String) :
    (nodeLine i name).toList =
      "    ".toList ++ (Nat.toDigits 10 i ++ ' ' :: ("[ label = \"".toList ++
        (name.toList.flatMap labelChar ++ "\" ]\n".toList))) := by
  unfold nodeLine label
  simp

theorem toList_edgeLine (i j : Nat) :
    (edgeLine i j).toList =
      "    ".toList ++ (Nat.toDigits 10 i ++ ' ' :: ("-> ".toList ++
        (Nat.toDigits 10 j ++ ' ' :: "[ ]\n".toList))) := by
  unfold edgeLine
  simp

theorem isLine_nodeLine (i : Nat) (name : String) : IsLine (nodeLine i name) := by
  have hdigits : '\n' ∉ Nat.toDigits 10 i := Text.not_mem_toDigits (by decide)
  refine ⟨"    ".toList ++ (Nat.toDigits 10 i ++ ' ' :: ("[ label = \"".toList ++
    (name.toList.flatMap labelChar ++ "\" ]".toList))), ?_, ?_⟩
  · simp [hdigits, break_not_mem_labelChar]
  · rw [toList_nodeLine]
    simp

theorem isLine_edgeLine (i j : Nat) : IsLine (edgeLine i j) := by
  have hi : '\n' ∉ Nat.toDigits 10 i := Text.not_mem_toDigits (by decide)
  have hj : '\n' ∉ Nat.toDigits 10 j := Text.not_mem_toDigits (by decide)
  refine ⟨"    ".toList ++ (Nat.toDigits 10 i ++ ' ' :: ("-> ".toList ++
    (Nat.toDigits 10 j ++ ' ' :: "[ ]".toList))), ?_, ?_⟩
  · simp [hi, hj]
  · rw [toList_edgeLine]
    simp

/-- A line is told from one of the other kind by the quotes around a label. -/
theorem quote_mem_nodeLine (i : Nat) (name : String) : '"' ∈ (nodeLine i name).toList := by
  rw [toList_nodeLine]
  simp

theorem quote_not_mem_edgeLine (i j : Nat) : '"' ∉ (edgeLine i j).toList := by
  have hi : '"' ∉ Nat.toDigits 10 i := Text.not_mem_toDigits (by decide)
  have hj : '"' ∉ Nat.toDigits 10 j := Text.not_mem_toDigits (by decide)
  rw [toList_edgeLine]
  simp [hi, hj]

theorem nodeLine_inj {i j : Nat} {name name' : String} (h : nodeLine i name = nodeLine j name') :
    i = j ∧ name = name' := by
  replace h := congrArg String.toList h
  rw [toList_nodeLine, toList_nodeLine, List.append_cancel_left_eq] at h
  obtain ⟨hnumber, hlabel⟩ :=
    append_cons_inj (Text.not_mem_toDigits (by decide)) (Text.not_mem_toDigits (by decide)) h
  rw [List.append_cancel_left_eq, List.append_cancel_right_eq] at hlabel
  refine ⟨Text.toDigits_inj.1 hnumber, String.toList_injective ?_⟩
  rw [← readLabel_flatMap_labelChar name.toList, hlabel, readLabel_flatMap_labelChar]

theorem edgeLine_inj {i i' j j' : Nat} (h : edgeLine i j = edgeLine i' j') : i = i' ∧ j = j' := by
  replace h := congrArg String.toList h
  rw [toList_edgeLine, toList_edgeLine, List.append_cancel_left_eq] at h
  obtain ⟨hsource, htarget⟩ :=
    append_cons_inj (Text.not_mem_toDigits (by decide)) (Text.not_mem_toDigits (by decide)) h
  rw [List.append_cancel_left_eq, List.append_cancel_right_eq] at htarget
  exact ⟨Text.toDigits_inj.1 hsource, Text.toDigits_inj.1 htarget⟩

/-! ## The text of a graph -/

/-- The lines of the nodes. -/
def nodeLines (d : Dag String) : List String := d.nodes.zipIdx.map fun x => nodeLine x.2 x.1

/-- The lines of the edges. -/
def edgeLines (d : Dag String) : List String :=
  d.edges.map fun x => edgeLine (d.nodes.idxOf x.1) (d.nodes.idxOf x.2)

theorem toDot_eq (d : Dag String) :
    d.toDot = String.join ("digraph \x7b\n" :: (d.nodeLines ++ d.edgeLines ++ ["\x7d\n"])) := by
  apply String.toList_injective
  unfold toDot nodeLines edgeLines
  simp [String.toList_join]

theorem isLine_of_mem {d : Dag String} {s : String}
    (h : s ∈ "digraph \x7b\n" :: (d.nodeLines ++ d.edgeLines ++ ["\x7d\n"])) : IsLine s := by
  rw [List.mem_cons, List.mem_append, List.mem_append, List.mem_singleton] at h
  rcases h with rfl | (h | h) | rfl
  · exact ⟨"digraph \x7b".toList, by decide, rfl⟩
  · obtain ⟨x, -, rfl⟩ := List.mem_map.1 h
    exact isLine_nodeLine x.2 x.1
  · obtain ⟨x, -, rfl⟩ := List.mem_map.1 h
    exact isLine_edgeLine _ _
  · exact ⟨['\x7d'], by decide, rfl⟩

/-- Where the lines of nodes end and those of edges begin is told by the quotes. -/
theorem filter_quote (d : Dag String) :
    (d.nodeLines ++ d.edgeLines).filter (fun s => '"' ∈ s.toList) = d.nodeLines := by
  rw [List.filter_append, List.filter_eq_self.2, List.filter_eq_nil_iff.2, List.append_nil]
  · intro s hs
    obtain ⟨x, -, rfl⟩ := List.mem_map.1 hs
    simpa using quote_not_mem_edgeLine _ _
  · intro s hs
    obtain ⟨x, -, rfl⟩ := List.mem_map.1 hs
    simpa using quote_mem_nodeLine x.2 x.1

theorem nodes_eq_of_nodeLines {d e : Dag String} (h : d.nodeLines = e.nodeLines) :
    d.nodes = e.nodes := by
  have hinj : Function.Injective fun x : String × Nat => nodeLine x.2 x.1 := by
    rintro ⟨name, i⟩ ⟨name', j⟩ hline
    obtain ⟨rfl, rfl⟩ := nodeLine_inj hline
    rfl
  have hzip := List.map_injective_iff.2 hinj h
  rw [← List.zipIdx_map_fst 0 d.nodes, hzip, List.zipIdx_map_fst]

/-- The numbers of the two ends of each edge. -/
def edgeNumbers (d : Dag String) : List (Nat × Nat) :=
  d.edges.map fun x => (d.nodes.idxOf x.1, d.nodes.idxOf x.2)

/-- The numbers lead back to the nodes that they were given to. -/
theorem map_getElem?_edgeNumbers {d : Dag String} (hd : d.Simple) :
    (d.edgeNumbers.map fun x => (d.nodes[x.1]?, d.nodes[x.2]?)) =
      d.edges.map fun x => (some x.1, some x.2) := by
  unfold edgeNumbers
  rw [List.map_map]
  refine List.map_congr_left fun x hx => ?_
  have hedge : d.Edge x.1 x.2 := (mem_edges_iff hd.nodup_nodes).1 hx
  simp only [Function.comp_apply, List.getElem?_idxOf hedge.mem_nodes,
    List.getElem?_idxOf (hd.closed _ _ hedge)]

theorem edges_eq_of_edgeLines {d e : Dag String} (hd : d.Simple) (he : e.Simple)
    (hnodes : d.nodes = e.nodes) (h : d.edgeLines = e.edgeLines) : d.edges = e.edges := by
  have hline : Function.Injective fun x : Nat × Nat => edgeLine x.1 x.2 := by
    rintro ⟨i, j⟩ ⟨i', j'⟩ hline
    obtain ⟨rfl, rfl⟩ := edgeLine_inj hline
    rfl
  have hnumbers : d.edgeNumbers = e.edgeNumbers := by
    apply List.map_injective_iff.2 hline
    unfold edgeNumbers
    rw [List.map_map, List.map_map]
    exact h
  have hsome : Function.Injective fun x : String × String => (some x.1, some x.2) := by
    rintro ⟨a, b⟩ ⟨a', b'⟩ hpair
    simpa using hpair
  apply List.map_injective_iff.2 hsome
  show d.edges.map _ = e.edges.map _
  rw [← map_getElem?_edgeNumbers hd, ← map_getElem?_edgeNumbers he, hnumbers, hnodes]

/-- The text tells the nodes, the edges and the order of both. -/
theorem WellFormed.toDot_inj {d e : Dag String} (hd : d.WellFormed) (he : e.WellFormed) :
    d.toDot = e.toDot ↔ d = e := by
  constructor
  · intro h
    rw [toDot_eq, toDot_eq] at h
    have hlines := eq_of_join_eq (fun s => isLine_of_mem) (fun s => isLine_of_mem) h
    rw [List.cons.injEq, List.append_cancel_right_eq] at hlines
    obtain ⟨-, hlines⟩ := hlines
    have hnodeLines : d.nodeLines = e.nodeLines := by
      rw [← filter_quote d, hlines, filter_quote e]
    rw [hnodeLines, List.append_cancel_left_eq] at hlines
    have hnodes := nodes_eq_of_nodeLines hnodeLines
    exact ext_edges he.nodup_nodes hnodes (edges_eq_of_edgeLines hd.simple he.simple hnodes hlines)
  · rintro rfl
    rfl

/-! ## Objects -/

/-- The fields of a graph as an object are its entries, in the order of the names. -/
theorem toJson_eq {d : Dag String} (hd : d.WellFormed) :
    ∃ entries : List (String × List String),
      d.toJson = .obj (entries.map fun x => (x.1, Json.ofTexts x.2)) ∧
      entries.Perm d.entries :=
  ⟨_, rfl, Table.toList_ofList_perm hd.nodup_nodes⟩

/-- A graph as an object has a field for each node and no other. The entries that these fields are,
in whatever order, make an equal graph. As a text in the DOT language, graphs are the same only if
they have the same nodes in the same order, each with the same list of dependencies. -/
theorem Built.exports_determine {d e : Dag String} (hd : d.Built) (he : e.Built) :
    (∃ entries : List (String × List String),
      d.toJson = .obj (entries.map fun x => (x.1, Json.ofTexts x.2)) ∧
      (entries.map (·.1)).Perm d.nodes ∧
      ∀ given, entries.Perm given →
        ∃ f, Dag.ofDependencies given = .ok f ∧ (f == d) = true) ∧
      (d.toDot = e.toDot ↔ d.nodes = e.nodes ∧ ∀ n, d.dependencies n = e.dependencies n) := by
  have hdw := hd.wellFormed
  have hew := he.wellFormed
  constructor
  · obtain ⟨entries, hjson, hperm⟩ := toJson_eq hdw
    exact ⟨entries, hjson, hperm.map _, fun given hgiven =>
      hdw.ofDependencies_perm (hperm.symm.trans hgiven)⟩
  · rw [hdw.toDot_inj hew]
    constructor
    · rintro rfl
      exact ⟨rfl, fun _ => rfl⟩
    · rintro ⟨hnodes, hdeps⟩
      exact ext_views hew.nodup_nodes hnodes fun n _ => hdeps n

/-- Two nodes and an edge; a name has a backslash before an `l`. -/
def plain : Dag String := ⟨[("a", ["b\\l"]), ("b\\l", [])]⟩

/-- One node, whose name has quotes and line breaks as in the lines of the two nodes above. -/
def imitation : Dag String := ⟨[("a\" ]\n    1 [ label = \"b\n", [])]⟩

/-- The one name is told from the two that it imitates. -/
theorem exports_determine_imitation :
    ∃ d e : Dag String, d.Built ∧ e.Built ∧
      d.toDependencies = [("a", ["b\\l"]), ("b\\l", [])] ∧
      e.toDependencies = [("a\" ]\n    1 [ label = \"b\n", [])] ∧
      d.toDot ≠ e.toDot ∧
      ∃ entries : List (String × List String),
        d.toJson = .obj (entries.map fun x => (x.1, Json.ofTexts x.2)) ∧
        ∃ f, Dag.ofDependencies entries = .ok f ∧ (f == d) = true := by
  have hd : plain.Built :=
    built_of_ofDependencies [("a", ["b\\l"]), ("b\\l", [])] (by decide +kernel)
  have he : imitation.Built :=
    built_of_ofDependencies [("a\" ]\n    1 [ label = \"b\n", [])] (by decide +kernel)
  obtain ⟨⟨entries, hjson, -, hmade⟩, hdot⟩ := hd.exports_determine he
  refine ⟨plain, imitation, hd, he, rfl, rfl, fun h => ?_, entries, hjson,
    hmade entries (.refl entries)⟩
  obtain ⟨hnodes, -⟩ := hdot.1 h
  exact absurd hnodes (by decide)

end Rollout.Dag

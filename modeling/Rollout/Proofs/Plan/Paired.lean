import Rollout.Plan.Paired
import Rollout.Proofs.Dag.InPlace
import Rollout.Proofs.Plan.Build
import Rollout.Proofs.Walk.Result

/-!
# Steps and nodes stay one to one

A table of steps and the graph of their names are edited by separate statements, yet they never come
apart: they are those of a graph of steps in one piece, whichever operations are used and whether or
not they are refused.

* `Built.perform`: an edit of a graph that can be built.
* `Paired.Forms`: the two containers are those of a graph of steps.
* `Paired.Follows` and `Paired.Forms.perform`: what an edit of them comes to.
* `Paired.EndsAs`, `Paired.Forms.performAll` and `Paired.endsAs_ofSteps?`: the same for a list of
  edits, and for those that make the graph of some steps.
* `Paired.Reached.exists_built`: the two containers after any operations.
* `Paired.Forms.names_stepsOf`: no name of a node is passed over.
* `Paired.Reached.one_to_one`: names, nodes and steps, and what looks steps up by names.
-/

namespace Rollout.StepGraph

variable {μ : Type}

theorem Built.perform {g h : StepGraph μ} (hg : g.Built) {edit : Edit (Step μ)}
    (ok : g.perform edit = .ok h) : h.Built := by
  cases edit with
  | addStep step => exact hg.addStep ok
  | ensureStep step =>
    cases ok
    exact hg.ensureStep step
  | connect step needed => exact hg.connect ok
  | transpose =>
    cases ok
    exact hg.transpose
  | restrict names => exact hg.restrict ok

namespace Paired

/-! ## One edit -/

/-- The two containers are those of a graph of steps. -/
structure Forms (g : Paired μ) (h : StepGraph μ) : Prop where
  steps : g.steps.map (·.step) = h.steps
  dag : g.dag = h.dag.indexed

/-- What an edit of the two containers comes to, if it comes to this on a graph of steps: to those
of the graph, where nodes that had a step still have it, or to a refusal that leaves what there was.
-/
inductive Follows (g : Paired μ) :
    Except Error (StepGraph μ) → Option (Except Error Unit × Paired μ) → Prop where
  | done {g' : Paired μ} {h' : StepGraph μ} (forms : g'.Forms h')
      (keeps : ∀ n ∈ h'.dag.nodes, ∀ s, g.steps.get? n = some s → g'.steps.get? n = some s) :
      Follows g (.ok h') (some (.ok (), g'))
  | refused (e : Error) : Follows g (.error e) (some (.error e, g))

section

variable {g : Paired μ} {h : StepGraph μ}

theorem Forms.get? (forms : g.Forms h) (n : String) :
    h.get? n = (g.steps.get? n).map (·.step) := by
  rw [StepGraph.get?, ← forms.steps, Table.get?_map]

/-- A name is in the table exactly if it is a node. -/
theorem Forms.mem_nodes_iff (forms : g.Forms h) (sound : h.Sound) (n : String) :
    n ∈ h.dag.nodes ↔ ∃ s, g.steps.get? n = some s := by
  rw [sound.mem_nodes_iff]
  simp [forms.get?]

theorem Forms.named (forms : g.Forms h) (sound : h.Sound) {n : String} {s : Shared μ}
    (hs : g.steps.get? n = some s) : s.step.name = n :=
  sound.named n s.step (by rw [forms.get?, hs]; rfl)

/-- A step whose name is no node goes in beside the others. -/
theorem Forms.insert (forms : g.Forms h) (sound : h.Sound) {s : Shared μ} {d : Dag String}
    (hn : s.step.name ∉ h.dag.nodes) :
    g.Follows (.ok ⟨h.steps.insert s.step.name s.step, d⟩)
      (some (.ok (), ⟨g.steps.insert s.step.name s, d.indexed⟩)) := by
  refine .done ⟨by rw [Table.map_insert, forms.steps], rfl⟩ fun n _ t ht => ?_
  have hne : n ≠ s.step.name := fun hname =>
    hn (hname ▸ (forms.mem_nodes_iff sound n).2 ⟨t, ht⟩)
  rw [Table.get?_insert, if_neg hne, ht]

theorem Forms.addStep (forms : g.Forms h) (sound : h.Sound) (s : Shared μ) :
    g.Follows (h.addStep s.step) (some (g.addStep s)) := by
  rw [Paired.addStep, StepGraph.addStep, forms.dag, Dag.addNode_indexed, Dag.addNode]
  by_cases hn : s.step.name ∈ h.dag.nodes
  · simp only [if_pos hn, Dag.answer]
    rw [← forms.dag]
    exact .refused _
  · simp only [if_neg hn, Dag.answer]
    exact forms.insert sound hn

theorem Forms.ensureStep (forms : g.Forms h) (sound : h.Sound) (s : Shared μ) :
    g.Follows (.ok (h.ensureStep s.step)) (some (.ok (), g.ensureStep s)) := by
  have hcontains : g.steps.contains s.step.name = h.steps.contains s.step.name := by
    rw [Table.contains, Table.contains, ← forms.steps, Table.get?_map, Option.isSome_map]
  rw [Paired.ensureStep, StepGraph.ensureStep, hcontains]
  split
  · exact .done forms fun _ _ _ hs => hs
  · next hnone =>
    rw [forms.dag, Dag.ensureNode_indexed]
    refine forms.insert sound fun hn => hnone ?_
    exact Table.contains_iff.2 ((sound.mem_nodes_iff _).1 hn)

theorem Forms.connect (forms : g.Forms h) (sound : h.Sound) (step needed : String) :
    g.Follows (h.connect step needed) (g.connect? step needed) := by
  rw [connect?, StepGraph.connect, forms.dag, Dag.addEdge?_indexed sound.wellFormed]
  cases h.dag.addEdge step needed with
  | error refusal =>
    simp only [Option.map_some, Dag.answer]
    rw [← forms.dag]
    exact .refused _
  | ok d => exact .done ⟨forms.steps, rfl⟩ fun _ _ _ hs => hs

theorem Forms.transpose (forms : g.Forms h) (sound : h.Sound) :
    g.Follows (.ok h.transpose) (g.transpose?.map (.ok (), ·)) := by
  rw [transpose?, forms.dag, Dag.transpose?_indexed sound.wellFormed.nodup_nodes]
  exact .done ⟨forms.steps, rfl⟩ fun _ _ _ hs => hs

theorem Forms.restrict (forms : g.Forms h) (sound : h.Sound) (names : List String) :
    g.Follows (h.restrict names) (g.perform (.restrict names)) := by
  rw [Paired.perform, restrict?, forms.dag, Dag.restrict?_indexed sound.wellFormed.simple]
  cases hdag : h.dag.restrict names with
  | error refusal =>
    rw [StepGraph.restrict, hdag]
    exact .refused _
  | ok d =>
    have hok : h.restrict names =
        .ok ⟨Table.ofList (d.nodes.filterMap fun n => (h.get? n).map (n, ·)), d⟩ := by
      rw [StepGraph.restrict, hdag]
    rw [hok]
    have hnodup := (sound.restrict hok).wellFormed.nodup_nodes
    refine .done ⟨?_, rfl⟩ fun n hn s hs =>
      (Table.get?_ofList_filterMap_eq_some_iff hnodup).2 ⟨hn, hs⟩
    rw [Table.map_ofList, List.map_filterMap]
    simp only [forms.get?, Option.map_map]
    rfl

/-- Every edit of the two containers follows the edit of the graph. -/
theorem Forms.perform (forms : g.Forms h) (sound : h.Sound) (edit : Edit (Shared μ)) :
    g.Follows (h.perform (edit.map (·.step))) (g.perform edit) := by
  cases edit with
  | addStep s => exact forms.addStep sound s
  | ensureStep s => exact forms.ensureStep sound s
  | connect step needed => exact forms.connect sound step needed
  | transpose => exact forms.transpose sound
  | restrict names => exact forms.restrict sound names

/-! ## Any edits -/

/-- What a list of edits comes to, if it comes to this on a graph of steps. -/
inductive EndsAs : Except Error (StepGraph μ) → Option (Except Error (Paired μ)) → Prop where
  | done {g : Paired μ} {h : StepGraph μ} (forms : g.Forms h) : EndsAs (.ok h) (some (.ok g))
  | refused (e : Error) : EndsAs (.error e) (some (.error e))

theorem Forms.performAll (forms : g.Forms h) (hh : h.Built) (edits : List (Edit (Shared μ))) :
    EndsAs ((edits.map (Edit.map (·.step))).foldlM StepGraph.perform h) (g.performAll? edits) := by
  induction edits generalizing g h with
  | nil => exact .done forms
  | cons edit edits ih =>
    have hfollows := forms.perform hh.sound edit
    rw [List.map_cons, List.foldlM_cons, performAll?]
    generalize hedit : h.perform (edit.map (·.step)) = result at hfollows ⊢
    generalize g.perform edit = performed at hfollows ⊢
    cases hfollows with
    | done forms' _ => exact ih forms' (hh.perform hedit)
    | refused e => exact .refused e

theorem foldlM_connects (steps : List (Shared μ)) (g : StepGraph μ) :
    ((steps.flatMap fun s => s.step.requires.map (Edit.connect s.step.name)).map
        (Edit.map Shared.step)).foldlM StepGraph.perform g =
      (steps.map (·.step)).foldlM connectAll g := by
  induction steps generalizing g with
  | nil => rfl
  | cons s steps ih =>
    rw [List.flatMap_cons, List.map_append, List.foldlM_append, List.map_cons, List.foldlM_cons,
      List.map_map, List.foldlM_map]
    exact congrArg _ (funext ih)

/-- The edits that make a graph of some steps make that graph. -/
theorem foldlM_ofSteps (steps : List (Shared μ)) :
    ((Edit.ofSteps steps).map (Edit.map (·.step))).foldlM StepGraph.perform StepGraph.empty =
      StepGraph.ofSteps (steps.map (·.step)) := by
  rw [Edit.ofSteps, List.map_append, List.foldlM_append, StepGraph.ofSteps, List.map_map,
    List.foldlM_map, List.foldlM_map]
  exact congrArg _ (funext (foldlM_connects steps))

theorem forms_empty : (empty : Paired μ).Forms StepGraph.empty := ⟨rfl, rfl⟩

theorem endsAs_ofSteps? (steps : List (Shared μ)) :
    EndsAs (StepGraph.ofSteps (steps.map (·.step))) (ofSteps? steps) := by
  rw [← foldlM_ofSteps]
  exact forms_empty.performAll .empty _

/-- Whatever has been done, the two containers are those of a graph of steps that can be built. -/
theorem Reached.exists_built (hg : g.Reached) : ∃ h : StepGraph μ, h.Built ∧ g.Forms h := by
  induction hg with
  | empty => exact ⟨StepGraph.empty, .empty, forms_empty⟩
  | @ofSteps steps g built =>
    have hends := endsAs_ofSteps? steps
    rw [built] at hends
    generalize hsteps : StepGraph.ofSteps (steps.map (·.step)) = result at hends
    cases hends with
    | done forms => exact ⟨_, .ofSteps hsteps, forms⟩
  | @edit g g' edit _ _ performed ih =>
    obtain ⟨h, hh, forms⟩ := ih
    have hfollows := forms.perform hh.sound edit
    rw [performed] at hfollows
    generalize hedit : h.perform (edit.map (·.step)) = result at hfollows
    cases hfollows with
    | done forms' _ => exact ⟨_, hh.perform hedit, forms'⟩
    | refused e => exact ⟨h, hh, forms⟩

/-! ## Names and nodes -/

theorem Forms.graph_eq (forms : g.Forms h) : g.graph = h.dag := by
  rw [graph, forms.dag]
  rfl

/-- Among the names of nodes none is passed over. -/
theorem Forms.names_stepsOf (forms : g.Forms h) (sound : h.Sound) {names : List String}
    (hnames : ∀ n ∈ names, n ∈ h.dag.nodes) :
    (g.stepsOf names).map (·.step.name) = names := by
  have hsteps : h.stepsOf names = (g.stepsOf names).map (·.step) := by
    rw [StepGraph.stepsOf, stepsOf, List.map_filterMap]
    exact congrArg (List.filterMap · names) (funext forms.get?)
  have hsound := sound.names_stepsOf hnames
  rwa [hsteps, List.map_map] at hsound

theorem Forms.sort? (forms : g.Forms h) (sound : h.Sound) :
    ∃ names, g.dag.sort? = some (.ok names) ∧ names.Perm g.dag.order ∧
      g.sort? = some (.ok (g.stepsOf names)) := by
  obtain ⟨names, hnames⟩ := sound.wellFormed.exists_sort
  have hsort : g.dag.sort? = some (.ok names) := by
    rw [forms.dag, Dag.sort?_indexed sound.wellFormed.simple, hnames]
  refine ⟨names, hsort, ?_, by rw [Paired.sort?, hsort]; rfl⟩
  rw [forms.dag]
  exact sound.wellFormed.simple.sort_perm hnames

/-- Whatever was done to the two containers, whether it was refused or not, the names in the table
are the nodes of the graph, and each of them is bound to a step of that very name. Every further
edit is answered. A refused one leaves both containers as they were, and after the others the nodes
that are left are bound to the very steps that they were bound to. So no node is passed over when
the steps are listed or sorted, and a walk never visits one without a step. -/
theorem Reached.one_to_one (hg : g.Reached) :
    g.dag = g.graph.indexed ∧ (∀ n, n ∈ g.dag.order ↔ n ∈ g.steps.keys) ∧
      (∀ n s, g.steps.get? n = some s → s.step.name = n) ∧
      (∀ edit, ∃ answer g', g.perform edit = some (answer, g') ∧
        (∀ e, answer = .error e → g' = g) ∧
        ∀ n ∈ g'.dag.order, ∀ s, g.steps.get? n = some s → g'.steps.get? n = some s) ∧
      g.toList.map (·.step.name) = g.dag.order ∧
      (∃ names steps, g.dag.sort? = some (.ok names) ∧ names.Perm g.dag.order ∧
        g.sort? = some (.ok steps) ∧ steps.map (·.step.name) = names) ∧
      ∀ cap visit missing w, Walk.Reached g.graph cap (g.visitAt visit missing) w →
        ∀ n ∈ w.dispatched, ∃ s, g.steps.get? n = some s ∧ g.visitAt visit missing n = visit s := by
  obtain ⟨h, hh, forms⟩ := hg.exists_built
  have sound := hh.sound
  have horder : g.dag.order = h.dag.nodes := congrArg Dag.Indexed.order forms.dag
  refine ⟨by rw [forms.graph_eq, forms.dag], fun n => ?_, fun n s => forms.named sound,
    fun edit => ?_, ?_, ?_, fun cap visit missing w hw n hn => ?_⟩
  · rw [horder, Table.mem_keys_iff, forms.mem_nodes_iff sound]
  · have hfollows := forms.perform sound edit
    generalize h.perform (edit.map (·.step)) = result at hfollows
    generalize g.perform edit = performed at hfollows ⊢
    cases hfollows with
    | done forms' keeps =>
      refine ⟨_, _, rfl, nofun, fun n hn => keeps n ?_⟩
      rwa [forms'.dag] at hn
    | refused e => exact ⟨_, _, rfl, fun _ _ => rfl, fun _ _ _ hs => hs⟩
  · exact forms.names_stepsOf sound fun n hn => horder ▸ hn
  · obtain ⟨names, hnames, hperm, hsort⟩ := forms.sort? sound
    refine ⟨names, _, hnames, hperm, hsort, forms.names_stepsOf sound fun n hn => ?_⟩
    exact horder ▸ hperm.mem_iff.1 hn
  · rw [forms.graph_eq] at hw
    have hnode := (hw.sound sound.wellFormed).dispatched_subset hn
    rw [hw.dag_eq] at hnode
    obtain ⟨s, hs⟩ := (forms.mem_nodes_iff sound n).1 hnode
    exact ⟨s, hs, by rw [visitAt, hs]⟩

end

/-! ## Two steps -/

/-- Two steps, of which the second requires the first. -/
def couple : List (Shared Unit) :=
  [⟨0, .once "first" [] (.complete none)⟩, ⟨1, .once "second" ["first"] (.complete none)⟩]

/-- The two containers with the two steps. -/
def coupled : Paired Unit :=
  ⟨.ofList (couple.map fun s => (s.step.name, s)), ⟨["first", "second"],
    [("first", []), ("second", ["first"])]⟩⟩

/-- A step of the same name from elsewhere is refused and leaves the two as they were. When the
edges are turned round, the first one is still the one at address 0, and a walk that has only just
begun visits it. -/
theorem Reached.one_to_one_couple :
    coupled.perform (.addStep ⟨2, .once "first" [] (.complete none)⟩) =
        some (.error (.graph (.duplicateNode "first")), coupled) ∧
      (∃ answer turned s, coupled.perform .transpose = some (answer, turned) ∧
        turned.steps.get? "first" = some s ∧ s.address = 0) ∧
      (∀ missing, coupled.visitAt (fun s => s.address = 0) missing "first" = true) ∧
      coupled.toList.map (·.step.name) = ["first", "second"] := by
  have hbuilt : ofSteps? couple = some (.ok coupled) := by cbv
  obtain ⟨-, -, -, hedits, hlist, -, hwalk⟩ := Reached.one_to_one (.ofSteps hbuilt)
  refine ⟨?_, ?_, fun missing => ?_, hlist⟩
  · obtain ⟨answer, left, hperform, hleft, -⟩ :=
      hedits (.addStep ⟨2, .once "first" [] (.complete none)⟩)
    have hanswer : answer = .error (.graph (.duplicateNode "first")) :=
      (congrArg Prod.fst (Option.some.inj hperform)).symm
    rw [hperform, hleft _ hanswer, hanswer]
  · obtain ⟨answer, turned, hperform, -, hkeeps⟩ := hedits .transpose
    have horder : (coupled.perform .transpose).map (·.2.dag.order) = some ["first", "second"] := by
      cbv
    rw [hperform] at horder
    replace horder : turned.dag.order = ["first", "second"] := Option.some.inj horder
    have hmem : "first" ∈ turned.dag.order := horder ▸ List.mem_cons_self
    exact ⟨answer, turned, _, hperform, hkeeps "first" hmem _ rfl, rfl⟩
  · have hbegun : "first" ∈ (Walk.start coupled.graph none).dispatched := by decide
    obtain ⟨s, hs, hvisit⟩ := hwalk none (fun s => s.address = 0) missing _ .start "first" hbegun
    obtain rfl := Option.some.inj hs
    rw [hvisit]
    rfl

end Paired

end Rollout.StepGraph

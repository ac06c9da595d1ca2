import Rollout.Proofs.Dag.Closure
import Rollout.Proofs.Plan.Build

/-!
# Plans narrowed to targets

A target is the name or the short name of a step. It stands for all steps that answer to it: a short
name may be shared, and it may be the name of another step. A plan that is built for targets has the
steps that they stand for and all that these depend on, in reverse all that depends on these.

* `Step.AnswersTo`, `Plan.IsAnswered`: a step answers to a target, and some step does.
* `Plan.resolveTargets_eq`: which names the targets stand for, and which target is refused.
* `Plan.build_some`: a plan for targets is the whole plan, narrowed.
* `Plan.exists_build_iff`: of which steps a plan is made, and for which targets.
* `Plan.Selects`: what a plan for targets is, next to the whole plan.
* `Plan.build_targets`: targets are refused for the first one without an answer, and for nothing
  else.
-/

namespace Rollout

variable {μ : Type}

/-- The step answers to a target, by its name or by its short name. -/
def Step.AnswersTo (step : Step μ) (target : String) : Prop :=
  step.name = target ∨ step.shortName = target

theorem Step.isNamed_iff {step : Step μ} {target : String} :
    step.isNamed target = true ↔ step.AnswersTo target := by
  unfold isNamed AnswersTo
  rw [Bool.or_eq_true, beq_iff_eq, beq_iff_eq, or_comm]

/-! ## Steps in their order -/

namespace StepGraph

/-- A graph of steps lists them as they were given. -/
theorem toList_ofSteps {steps : List (Step μ)} {g : StepGraph μ} (ok : ofSteps steps = .ok g) :
    g.toList = steps := by
  unfold toList stepsOf
  rw [nodes_ofSteps ok, List.filterMap_map]
  have hfound : ∀ step ∈ steps, (g.get? ∘ fun step => step.name) step = some step :=
    fun step hs => (get?_ofSteps_eq_some_iff ok).2 ⟨hs, rfl⟩
  rw [List.filterMap_congr hfound, List.filterMap_some]

/-- Turned round it lists them in the same order. -/
theorem toList_turned {steps : List (Step μ)} {g : StepGraph μ} (ok : ofSteps steps = .ok g)
    (reverse : Bool) : (if reverse then g.transpose else g).toList = steps := by
  cases reverse with
  | true =>
    have hnodes : g.transpose.dag.nodes = g.dag.nodes :=
      Dag.nodes_transpose (Sound.ofSteps ok).wellFormed.simple
    rw [if_pos rfl, ← toList_ofSteps ok]
    unfold toList
    rw [hnodes]
    rfl
  | false => exact toList_ofSteps ok

/-- A graph is narrowed to any of its nodes. -/
theorem exists_restrict {g : StepGraph μ} {names : List String}
    (h : ∀ n ∈ names, n ∈ g.dag.nodes) : ∃ narrowed, g.restrict names = .ok narrowed := by
  obtain ⟨kept, -, hdag⟩ := Dag.exists_restrict h
  unfold restrict
  rw [hdag]
  exact ⟨_, rfl⟩

/-- The steps that are kept stay in their order. -/
theorem sublist_toList_restrict {g h : StepGraph μ} (hg : g.Sound) {names : List String}
    (ok : g.restrict names = .ok h) : h.toList.Sublist g.toList := by
  have hnodup := (hg.restrict ok).wellFormed.nodup_nodes
  obtain ⟨kept, -, -, hdag, hsteps⟩ := restrict_eq_ok ok
  have hsub : h.dag.nodes.Sublist g.dag.nodes := by
    rw [hdag, Dag.nodes_keep]
    exact List.filter_sublist
  have hsame : ∀ n ∈ h.dag.nodes, h.get? n = g.get? n := by
    intro n hn
    apply Option.ext
    intro step
    rw [get?_restrict_eq_some_iff hnodup hsteps]
    exact and_iff_right hn
  unfold toList stepsOf
  rw [List.filterMap_congr hsame]
  exact hsub.filterMap g.get?

end StepGraph

namespace Plan

variable {id description : String} {steps : List (Step μ)} {targets : List String} {reverse : Bool}
  {whole : Plan μ}

/-! ## What targets stand for -/

/-- Some step answers to the target. -/
def IsAnswered (steps : List (Step μ)) (target : String) : Prop :=
  ∃ step ∈ steps, step.AnswersTo target

/-- The check that refuses a target. -/
def isUnanswered (steps : List (Step μ)) (target : String) : Bool := !steps.any (·.isNamed target)

theorem isUnanswered_iff {target : String} :
    isUnanswered steps target = true ↔ ¬ IsAnswered steps target := by
  unfold isUnanswered IsAnswered
  simp only [Bool.not_eq_true', Bool.eq_false_iff, ne_eq, List.any_eq_true, Step.isNamed_iff]

/-- Targets are refused for the first one that no step answers to. Otherwise they stand for the
steps that answer to them. -/
theorem resolveTargets_eq (steps : List (Step μ)) (targets : List String) :
    resolveTargets steps targets =
      match targets.find? (isUnanswered steps) with
      | some target => .error (.target target)
      | none => .ok (targets.flatMap fun target => (steps.filter (·.isNamed target)).map (·.name)) := by
  unfold resolveTargets
  rw [← List.nil_append (targets.flatMap _)]
  generalize [] = names
  induction targets generalizing names with
  | nil => simp [pure, Except.pure]
  | cons target targets ih =>
    rw [List.foldlM_cons, List.flatMap_cons, ← List.append_assoc]
    cases hfound : steps.filter (·.isNamed target) with
    | nil =>
      have hnone : isUnanswered steps target = true := by
        unfold isUnanswered
        simpa using hfound
      rw [List.find?_cons_of_pos hnone]
      rfl
    | cons step found =>
      have hsome : ¬ isUnanswered steps target = true := by
        have hstep : step ∈ steps.filter (·.isNamed target) := hfound ▸ List.mem_cons_self
        obtain ⟨hs, hnamed⟩ := List.mem_filter.1 hstep
        rw [isUnanswered_iff, not_not]
        exact ⟨step, hs, Step.isNamed_iff.1 hnamed⟩
      rw [List.find?_cons_of_neg hsome]
      exact ih _

theorem find?_isUnanswered_eq_none (h : ∀ target ∈ targets, IsAnswered steps target) :
    targets.find? (isUnanswered steps) = none := by
  apply List.find?_eq_none.2
  intro target ht
  rw [isUnanswered_iff, not_not]
  exact h target ht

theorem resolveTargets_eq_error {before after : List String} {target : String}
    (hbefore : ∀ b ∈ before, IsAnswered steps b) (htarget : ¬ IsAnswered steps target) :
    resolveTargets steps (before ++ target :: after) = .error (.target target) := by
  rw [resolveTargets_eq, List.find?_append, find?_isUnanswered_eq_none hbefore, Option.none_or,
    List.find?_cons_of_pos (isUnanswered_iff.2 htarget)]

theorem exists_resolveTargets (h : ∀ target ∈ targets, IsAnswered steps target) :
    ∃ names, resolveTargets steps targets = .ok names ∧ ∀ n, n ∈ names ↔
      ∃ step ∈ steps, (∃ target ∈ targets, step.AnswersTo target) ∧ step.name = n := by
  refine ⟨_, by rw [resolveTargets_eq, find?_isUnanswered_eq_none h], fun n => ?_⟩
  simp only [List.mem_flatMap, List.mem_map, List.mem_filter, Step.isNamed_iff]
  constructor
  · rintro ⟨target, ht, step, ⟨hs, hanswers⟩, hname⟩
    exact ⟨step, hs, ⟨target, ht, hanswers⟩, hname⟩
  · rintro ⟨step, hs, ⟨target, ht, hanswers⟩, hname⟩
    exact ⟨target, ht, step, ⟨hs, hanswers⟩, hname⟩

/-! ## The whole plan, narrowed -/

/-- Without targets a plan has all steps. -/
theorem exists_build_none (id description : String) {g : StepGraph μ}
    (accepted : StepGraph.ofSteps steps = .ok g) (reverse : Bool) :
    ∃ whole, build id description steps none reverse = .ok whole ∧ whole.graph.toList = steps ∧
      ∀ a b, whole.graph.dag.Edge a b ↔
        if reverse then StepGraph.Requires steps b a else StepGraph.Requires steps a b := by
  refine ⟨{ id, description, graph := if reverse then g.transpose else g }, ?_,
    StepGraph.toList_turned accepted reverse, fun a b => StepGraph.edge_turned_iff accepted⟩
  rw [build, accepted]
  rfl

/-- With targets it is the whole plan, narrowed to the names that they stand for. -/
theorem build_some (hwhole : build id description steps none reverse = .ok whole)
    (hsteps : whole.graph.toList = steps) (targets : List String) :
    build id description steps (some targets) reverse =
      (resolveTargets steps targets).bind fun names =>
        (whole.graph.restrict names).bind fun graph => .ok { id, description, graph } := by
  unfold build at hwhole
  obtain ⟨g, hg, hwhole⟩ := Except.bind_eq_ok_iff.1 hwhole
  cases hwhole
  rw [build, hg]
  conv_rhs => rw [← hsteps]
  rfl

/-- A plan is made of steps that a graph can be made of, if each target has an answer. -/
theorem exists_build_iff {wanted : Option (List String)} :
    (∃ p, build id description steps wanted reverse = .ok p) ↔
      (∃ g, StepGraph.ofSteps steps = .ok g) ∧
        ∀ targets, wanted = some targets → ∀ target ∈ targets, IsAnswered steps target := by
  constructor
  · rintro ⟨p, hp⟩
    obtain ⟨g, hg, -⟩ := build_eq_ok hp
    refine ⟨⟨g, hg⟩, ?_⟩
    rintro targets rfl target htarget
    obtain ⟨whole, hwhole, hsteps, -⟩ := exists_build_none id description hg reverse
    rw [build_some hwhole hsteps, resolveTargets_eq] at hp
    cases hfind : targets.find? (isUnanswered steps) with
    | some other =>
      rw [hfind] at hp
      cases hp
    | none =>
      have hanswered := List.find?_eq_none.1 hfind target htarget
      rwa [isUnanswered_iff, not_not] at hanswered
  · rintro ⟨⟨g, hg⟩, hanswered⟩
    obtain ⟨whole, hwhole, hsteps, -⟩ := exists_build_none id description hg reverse
    cases wanted with
    | none => exact ⟨whole, hwhole⟩
    | some targets =>
      obtain ⟨names, hresolve, hnames⟩ := exists_resolveTargets (hanswered targets rfl)
      have hkeys : whole.keys = steps.map (·.name) := by
        rw [← names_toList (sound_build hwhole), hsteps]
      obtain ⟨graph, hgraph⟩ : ∃ graph, whole.graph.restrict names = .ok graph := by
        refine StepGraph.exists_restrict fun n hn => ?_
        obtain ⟨step, hs, -, rfl⟩ := (hnames n).1 hn
        show step.name ∈ whole.keys
        rw [hkeys]
        exact List.mem_map_of_mem hs
      refine ⟨{ id, description, graph }, ?_⟩
      rw [build_some hwhole hsteps, hresolve, Except.bind, hgraph]
      rfl

/-- What a plan for targets is, next to the whole plan: the steps that answer to a target with all
that these depend on, each with the dependencies that it has in the whole plan. -/
structure Selects (steps : List (Step μ)) (targets : List String) (whole p : Plan μ) : Prop where
  /-- The keys are the names of the steps. -/
  keys : p.keys = p.graph.toList.map (·.name)
  /-- The steps are in the order in which they were given. -/
  sublist : p.graph.toList.Sublist steps
  /-- A key is the name of a step that answers to a target, or such a step depends on it. -/
  mem_keys_iff : ∀ n, n ∈ p.keys ↔ ∃ step ∈ steps, (∃ target ∈ targets, step.AnswersTo target) ∧
    (step.name = n ∨ whole.graph.dag.Path step.name n)
  /-- What a step depends on is kept. -/
  dependencies : ∀ n ∈ p.keys, p.graph.dag.dependencies n = whole.graph.dag.dependencies n
  /-- In the order of execution each step comes after all that it depends on. -/
  order : ∃ order, p.executionOrder = .ok order ∧ order.Perm p.keys ∧
    ∀ a ∈ p.keys, ∀ b, whole.graph.dag.Path a b → b ∈ order ∧ order.idxOf b < order.idxOf a

theorem selects_restrict {p : Plan μ} {names : List String} (hsound : whole.graph.Sound)
    (hsteps : whole.graph.toList = steps) (ok : whole.graph.restrict names = .ok p.graph)
    (hnames : ∀ n, n ∈ names ↔
      ∃ step ∈ steps, (∃ target ∈ targets, step.AnswersTo target) ∧ step.name = n) :
    Selects steps targets whole p := by
  have hp := hsound.restrict ok
  obtain ⟨kept, hkeeps, hkept, hdag, -⟩ := StepGraph.restrict_eq_ok ok
  have hmem : ∀ n ∈ p.keys, n ∈ kept := by
    intro n hn
    unfold keys at hn
    rw [hdag] at hn
    exact (Dag.mem_nodes_keep_iff.1 hn).2
  constructor
  case keys => exact (names_toList hp).symm
  case sublist =>
    rw [← hsteps]
    exact StepGraph.sublist_toList_restrict hsound ok
  case mem_keys_iff =>
    intro n
    unfold keys
    rw [hdag, Dag.mem_nodes_keep_closure_iff hsound.wellFormed.simple hkept]
    simp only [hnames]
    constructor
    · rintro ⟨_, ⟨step, hs, htarget, rfl⟩, hn⟩
      exact ⟨step, hs, htarget, hn⟩
    · rintro ⟨step, hs, htarget, hn⟩
      exact ⟨_, ⟨step, hs, htarget, rfl⟩, hn⟩
  case dependencies =>
    intro n hn
    rw [hdag]
    exact Dag.dependencies_keep_of_mem hkeeps (hmem n hn)
  case order =>
    obtain ⟨order, horder, hperm, hlt⟩ := exists_executionOrder hp
    refine ⟨order, horder, hperm, fun a ha b hab => ?_⟩
    have hpath : p.graph.dag.Path a b := by
      rw [hdag]
      exact (Dag.path_keep_of_mem hkeeps (hmem a ha)).2 hab
    exact ⟨hperm.mem_iff.2 (hp.wellFormed.simple.path_mem_nodes hpath), hlt a b hpath⟩

/-- Steps that a graph can be made of have a whole plan, in which each depends on what it requires
or, in reverse, on what requires it. Targets are refused for the first one that is neither the name
nor the short name of a step. Otherwise the plan for them has exactly the steps that answer to them
and all that these depend on in the whole plan. -/
theorem build_targets {g : StepGraph μ} (accepted : StepGraph.ofSteps steps = .ok g)
    (id description : String) (targets : List String) (reverse : Bool) :
    ∃ whole, build id description steps none reverse = .ok whole ∧ whole.graph.toList = steps ∧
      (∀ a b, whole.graph.dag.Edge a b ↔
        if reverse then StepGraph.Requires steps b a else StepGraph.Requires steps a b) ∧
      (∀ before target after, targets = before ++ target :: after →
        (∀ b ∈ before, IsAnswered steps b) → ¬ IsAnswered steps target →
          build id description steps (some targets) reverse = .error (.target target)) ∧
      ((∀ target ∈ targets, IsAnswered steps target) →
        ∃ p, build id description steps (some targets) reverse = .ok p ∧
          Selects steps targets whole p) := by
  obtain ⟨whole, hwhole, hsteps, hedge⟩ := exists_build_none id description accepted reverse
  refine ⟨whole, hwhole, hsteps, hedge, ?_, fun hanswered => ?_⟩
  · rintro before target after rfl hbefore htarget
    rw [build_some hwhole hsteps, resolveTargets_eq_error hbefore htarget]
    rfl
  · have hsound := sound_build hwhole
    obtain ⟨names, hresolve, hnames⟩ := exists_resolveTargets hanswered
    have hnodes : ∀ n ∈ names, n ∈ whole.graph.dag.nodes := by
      intro n hn
      obtain ⟨step, hs, -, rfl⟩ := (hnames n).1 hn
      have hkeys := names_toList hsound
      rw [hsteps] at hkeys
      show step.name ∈ whole.keys
      rw [← hkeys]
      exact List.mem_map_of_mem hs
    obtain ⟨h, hrestrict⟩ : ∃ h, whole.graph.restrict names = .ok h := by
      obtain ⟨kept, -, hdag⟩ := Dag.exists_restrict hnodes
      unfold StepGraph.restrict
      rw [hdag]
      exact ⟨_, rfl⟩
    refine ⟨{ id, description, graph := h }, ?_, selects_restrict hsound hsteps hrestrict hnames⟩
    rw [build_some hwhole hsteps, hresolve, Except.bind, hrestrict]
    rfl

/-- Steps of which two share a short name and one has the name of another one as its short name. -/
def namesakes : List (Step Unit) :=
  [.once "net" [] (.complete none),
    { Step.once "left/db" ["net"] (.complete none) with shortName := "db" },
    { Step.once "right/db" [] (.complete none) with shortName := "db" },
    { Step.once "app" ["left/db"] (.complete none) with shortName := "net" }]

theorem exists_ofSteps_namesakes : ∃ g, StepGraph.ofSteps namesakes = .ok g := by
  refine ⟨⟨.ofList (namesakes.map fun step => (step.name, step)),
    ⟨[("net", []), ("left/db", ["net"]), ("right/db", []), ("app", ["left/db"])]⟩⟩, ?_⟩
  cbv

/-- Nothing leads to a step that nobody asked for and that nothing depends on. -/
theorem Selects.not_mem_keys {p : Plan μ} (h : Selects steps targets whole p) {n : String}
    (hasked : ∀ step ∈ steps, step.name = n → ∀ target ∈ targets, ¬ step.AnswersTo target)
    (hneeded : ∀ a, ¬ whole.graph.dag.Edge a n) : n ∉ p.keys := by
  intro hn
  obtain ⟨step, hs, ⟨target, ht, hanswers⟩, hname | hpath⟩ := (h.mem_keys_iff n).1 hn
  · exact hasked step hs hname target ht hanswers
  · obtain ⟨c, -, last⟩ := hpath.exists_last
    exact hneeded c last

/-- The short name, given twice, stands for both steps that share it, and in reverse the one that
requires the first of them is kept too. The name that is also a short name stands for two steps. Of
two targets without an answer the first one is refused. -/
theorem build_targets_namesakes :
    (∃ p, build "run" "" namesakes (some ["db", "db"]) true = .ok p ∧ "left/db" ∈ p.keys ∧
      "right/db" ∈ p.keys ∧ "app" ∈ p.keys ∧ "net" ∉ p.keys) ∧
    (∃ p, build "run" "" namesakes (some ["net"]) false = .ok p ∧ "net" ∈ p.keys ∧
      "app" ∈ p.keys ∧ "left/db" ∈ p.keys ∧ "right/db" ∉ p.keys ∧
      ∃ order, p.executionOrder = .ok order ∧ order.idxOf "left/db" < order.idxOf "app") ∧
    build "run" "" namesakes (some ["db", "ghost", "net", "phantom"]) true =
      .error (.target "ghost") := by
  obtain ⟨g, hg⟩ := exists_ofSteps_namesakes
  have hdb : IsAnswered namesakes "db" := by
    simp [IsAnswered, namesakes, Step.AnswersTo, Step.once]
  have hnet : IsAnswered namesakes "net" := by
    simp [IsAnswered, namesakes, Step.AnswersTo, Step.once]
  have hghost : ¬ IsAnswered namesakes "ghost" := by
    simp [IsAnswered, namesakes, Step.AnswersTo, Step.once]
  refine ⟨?_, ?_, ?_⟩
  · obtain ⟨whole, -, -, hedge, -, hselects⟩ := build_targets hg "run" "" ["db", "db"] true
    obtain ⟨p, hp, hselect⟩ := hselects (by simpa using hdb)
    have happ : whole.graph.dag.Path "left/db" "app" := by
      refine .edge ((hedge _ _).2 ?_)
      simp [StepGraph.Requires, namesakes, Step.once]
    refine ⟨p, hp, ?_, ?_, ?_, hselect.not_mem_keys ?_ fun a h => ?_⟩
    · rw [hselect.mem_keys_iff]
      simp [namesakes, Step.AnswersTo, Step.once]
    · rw [hselect.mem_keys_iff]
      simp [namesakes, Step.AnswersTo, Step.once]
    · rw [hselect.mem_keys_iff]
      simp [namesakes, Step.AnswersTo, Step.once, happ]
    · simp [namesakes, Step.AnswersTo, Step.once]
    · have hrequires := (hedge a "net").1 h
      simp [StepGraph.Requires, namesakes, Step.once] at hrequires
  · obtain ⟨whole, -, -, hedge, -, hselects⟩ := build_targets hg "run" "" ["net"] false
    obtain ⟨p, hp, hselect⟩ := hselects (by simpa using hnet)
    have hdb : whole.graph.dag.Path "app" "left/db" := by
      refine .edge ((hedge _ _).2 ?_)
      simp [StepGraph.Requires, namesakes, Step.once]
    have happ : "app" ∈ p.keys := by
      rw [hselect.mem_keys_iff]
      simp [namesakes, Step.AnswersTo, Step.once]
    obtain ⟨order, horder, -, hlt⟩ := hselect.order
    refine ⟨p, hp, ?_, happ, ?_, hselect.not_mem_keys ?_ fun a h => ?_, order, horder,
      (hlt "app" happ "left/db" hdb).2⟩
    · rw [hselect.mem_keys_iff]
      simp [namesakes, Step.AnswersTo, Step.once]
    · rw [hselect.mem_keys_iff]
      simp [namesakes, Step.AnswersTo, Step.once, hdb]
    · simp [namesakes, Step.AnswersTo, Step.once]
    · have hrequires := (hedge a "right/db").1 h
      simp [StepGraph.Requires, namesakes, Step.once] at hrequires
  · obtain ⟨_, -, -, -, hrefuse, -⟩ :=
      build_targets hg "run" "" ["db", "ghost", "net", "phantom"] true
    exact hrefuse ["db"] "ghost" ["net", "phantom"] rfl (by simpa using hdb) hghost

end Plan

end Rollout

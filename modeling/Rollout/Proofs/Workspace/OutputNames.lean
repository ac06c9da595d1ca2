import Rollout.Proofs.Workspace.Requirements

/-!
# Which stack an output is read from

The plan and the lookups each find the stack that a variable names. They agree on all names that are
configured. A name that is not is one inside the namespace to the plan, and one at the provider to a
lookup.

* `Workspace.Serves.edge_of_reads`: the step of a stack depends on what the plan takes a name for.
* `Workspace.lookupContext_fqnFor_of_not_mem`: what a lookup takes a name for that is not
  configured.
* `Workspace.reads_dependencies`: an output is read from a stack that the plan waits for whenever
  the name is configured.
* `Config.borrowed` and `Workspace.reads_astray`: a name that is not, and the stack it means to the
  plan is another one than the stack it means to the lookup.
-/

namespace Rollout

/-- A configuration without fault has a namespace. -/
theorem Config.scope_ne_empty {c : Config} (h : c.validate = .ok ()) : c.scope ≠ "" := by
  intro hscope
  have hblank := (validate_eq_ok_iff.1 h).1
  rw [hscope] at hblank
  cases hblank

/-- Inside a namespace no name is qualified already. -/
theorem qualifiedName_ne {scope : String} (h : scope ≠ "") (delimiter name : String) :
    qualifiedName scope delimiter name ≠ name := by
  unfold qualifiedName
  rw [if_neg (by simpa using h)]
  intro heq
  have hlength := congrArg String.length heq
  have hpos : 0 < scope.length := Nat.pos_of_ne_zero fun h0 => h (String.length_eq_zero_iff.1 h0)
  simp only [String.length_append] at hlength
  omega

namespace Workspace

variable {c : Config} {w : Workspace} {id : String} {targets : Option (List String)}
  {p : Plan (Option Change)} {s : Stack} {value stack : String}

theorem scope_ofConfig (h : ofConfig c = .ok w) : w.scope = c.scope := by
  obtain ⟨members, -, h⟩ := Except.bind_eq_ok_iff.1 h
  cases h
  rfl

/-- A lookup takes a name that is not configured for one at the provider. -/
theorem lookupContext_fqnFor_of_not_mem (h : ∀ t ∈ w.members, t.name ≠ stack) :
    w.lookupContext.fqnFor stack = stack := by
  have hnone : w.lookupContext.fqns.get? stack = none := by
    show (Table.ofList _).get? stack = none
    rw [Table.get?_ofList, List.lookup_eq_none_iff]
    intro pair hpair
    obtain ⟨t, ht, rfl⟩ := List.mem_map.1 (List.mem_reverse.1 hpair)
    exact bne_iff_ne.2 (h t ht).symm
  rw [LookupContext.fqnFor, hnone, Option.getD_none]

/-- The plan takes it for one inside the namespace. -/
theorem fqnFor_of_not_mem (h : ∀ t ∈ w.members, t.name ≠ stack) :
    w.fqnFor stack = qualifiedName w.scope w.delimiter stack := by
  have hnone : w.stack? stack = none :=
    List.find?_eq_none.2 fun t ht => by simpa using h t ht
  rw [fqnFor, hnone]

namespace Serves

variable (hw : w.Serves c)
include hw

theorem scope : w.scope = c.scope := by
  obtain ⟨base, environment, forced, hbase, rfl⟩ := hw
  exact (scope_ofConfig hbase :)

/-- A stack requires all stacks that it reads, but itself. -/
theorem mem_requires_of_reads (hs : s ∈ w.members) (hvalue : value ∈ s.vars.values)
    (hreads : ReadsOutput value stack) (hne : stack ≠ s.name) : stack ∈ s.requires := by
  obtain ⟨base, environment, forced, hbase, rfl⟩ := hw
  obtain ⟨old, hold, rfl⟩ := List.mem_map.1 hs
  obtain ⟨hname, hvars, hrequires⟩ := forced_eq forced old
  obtain ⟨d, -, hof⟩ := Except.exists_of_mem_mapM (ofConfig_eq_ok hbase).2 hold
  obtain ⟨hname', hvars', hrequires'⟩ := Stack.ofDefinition_eq_ok hof
  rw [hvars, hvars'] at hvalue
  rw [hname, hname'] at hne
  rw [hrequires]
  exact Stack.mem_requirements_of_reads hrequires' hvalue hreads hne

/-- The step of a stack depends at once on what the plan takes the name of a stack for that its
variables read. -/
theorem edge_of_reads (planned : w.buildPlan id targets = .ok p) (hs : s ∈ w.members)
    (hnode : s.fqn ∈ p.graph.dag.nodes) (hvalue : value ∈ s.vars.values)
    (hreads : ReadsOutput value stack) (hne : stack ≠ s.name) :
    p.graph.dag.Edge s.fqn (w.fqnFor stack) := by
  obtain ⟨q, hq, hgraph⟩ := plan_eq_ok planned
  rw [hgraph] at hnode ⊢
  rw [Plan.edge_build_iff hq hnode, if_neg Bool.false_ne_true]
  have hrequires := hw.mem_requires_of_reads hs hvalue hreads hne
  exact ⟨_, List.mem_map.2 ⟨s, hs, rfl⟩, rfl, List.mem_map.2 ⟨stack, hrequires, rfl⟩⟩

end Serves

/-- Let a variable of a planned stack read an output of some stack. What the plan takes the name of
that stack for is the stack itself or one that its step depends on at once. A lookup reads from the
same one whenever the name is configured. Else it reads from the name as it is, which is not the one
that the plan has. -/
theorem reads_dependencies (hvalid : c.validate = .ok ()) (hw : w.Serves c)
    (planned : w.buildPlan id targets = .ok p) (hs : s ∈ w.members)
    (included : s.fqn ∈ p.graph.dag.nodes) (hvalue : value ∈ s.vars.values)
    (reads : ReadsOutput value stack) :
    (stack = s.name ∧ w.fqnFor stack = s.fqn ∨ p.graph.dag.Edge s.fqn (w.fqnFor stack)) ∧
    ((∃ t ∈ w.members, t.name = stack) → w.lookupContext.fqnFor stack = w.fqnFor stack) ∧
    ((∀ t ∈ w.members, t.name ≠ stack) →
      w.lookupContext.fqnFor stack = stack ∧ w.fqnFor stack ≠ stack) := by
  refine ⟨?_, ?_, fun hnone => ⟨lookupContext_fqnFor_of_not_mem hnone, ?_⟩⟩
  · by_cases hown : stack = s.name
    · subst hown
      exact .inl ⟨rfl, hw.fqnFor hvalid hs⟩
    · exact .inr (hw.edge_of_reads planned hs included hvalue reads hown)
  · rintro ⟨t, ht, rfl⟩
    rw [hw.fqnFor hvalid ht, lookupContext_fqnFor_of_nodup (hw.nodup_names hvalid) ht]
  · rw [fqnFor_of_not_mem hnone, hw.scope]
    exact qualifiedName_ne (Config.scope_ne_empty hvalid) _ _

end Workspace

/-! ## A name that is borrowed -/

/-- A stack with another name at the provider, one that reads an output of it by its own name, and
one that uses the other name, which is not configured. -/
def Config.borrowed : Config where
  scope := "n"
  execution := {}
  definitions :=
    [{ name := "x", stackName := some "r", templateBody := some "t" },
      { name := "b", vars := .ofList [("u", "$\x7boutput x::U\x7d")],
        templateBody := some "\x7b\x7bu\x7d\x7d" },
      { name := "s", vars := .ofList [("u", "$\x7boutput r::U\x7d")],
        templateBody := some "\x7b\x7bu\x7d\x7d" }]

namespace Workspace

/-- The workspace of that configuration. -/
def borrowed : Workspace where
  scope := "n"
  delimiter := "-"
  execution := {}
  members :=
    [⟨"x", "n-r", "inline", some "t", [], .empty, .empty, true, false, false⟩,
      ⟨"b", "n-b", "inline", some "\x7b\x7bu\x7d\x7d", ["x"],
        .ofList [("u", "$\x7boutput x::U\x7d")], .empty, true, false, false⟩,
      ⟨"s", "n-s", "inline", some "\x7b\x7bu\x7d\x7d", ["r"],
        .ofList [("u", "$\x7boutput r::U\x7d")], .empty, true, false, false⟩]

theorem serves_borrowed : borrowed.Serves Config.borrowed := by
  have hof : ofConfig Config.borrowed = .ok borrowed := by cbv
  exact ⟨borrowed, {}, [], hof, rfl⟩

/-- The plan of that workspace. -/
theorem graph_borrowed :
    (StepGraph.ofSteps (borrowed.members.map
      (borrowed.stepOf (Build.action borrowed) none))).toOption.any (fun graph =>
        graph.dag.entries = [("n-r", []), ("n-b", ["n-r"]), ("n-s", ["n-r"])]) = true := by
  decide +kernel

theorem exists_plan_borrowed :
    ∃ p, borrowed.buildPlan "one" none = .ok p ∧
      p.graph.dag = ⟨[("n-r", []), ("n-b", ["n-r"]), ("n-s", ["n-r"])]⟩ := by
  obtain ⟨graph, hgraph, h⟩ := (Option.any_eq_true _ _).1 graph_borrowed
  exact ⟨_, buildPlan_eq_ok (Except.toOption_eq_some_iff.1 hgraph) "one",
    congrArg Dag.mk (of_decide_eq_true h)⟩

theorem readsOutput_borrowed :
    ReadsOutput "$\x7boutput x::U\x7d" "x" ∧ ReadsOutput "$\x7boutput r::U\x7d" "r" := by
  have hx : tokenize "$\x7boutput x::U\x7d" = .ok [.lookup "output" "x::U"] := by cbv
  have hr : tokenize "$\x7boutput r::U\x7d" = .ok [.lookup "output" "r::U"] := by cbv
  have hx' : splitOutput "x::U" = .ok ("x", "U") := by cbv
  have hr' : splitOutput "r::U" = .ok ("r", "U") := by cbv
  exact ⟨⟨_, _, _, hx, List.mem_singleton_self _, hx'⟩,
    ⟨_, _, _, hr, List.mem_singleton_self _, hr'⟩⟩

/-- The plan is made although the lookup of a stack in it will read from a stack that is neither its
own nor one that its step depends on. -/
theorem reads_astray :
    Config.borrowed.validate = .ok () ∧ ofConfig Config.borrowed = .ok borrowed ∧
    ∃ p s value, borrowed.buildPlan "one" none = .ok p ∧ s ∈ borrowed.members ∧
      s.fqn ∈ p.graph.dag.nodes ∧ value ∈ s.vars.values ∧ ReadsOutput value "r" ∧
      borrowed.lookupContext.fqnFor "r" ≠ s.fqn ∧
      ¬ p.graph.dag.Edge s.fqn (borrowed.lookupContext.fqnFor "r") := by
  have hvalid : Config.borrowed.validate = .ok () := by cbv
  have hof : ofConfig Config.borrowed = .ok borrowed := by cbv
  obtain ⟨p, hplan, hdag⟩ := exists_plan_borrowed
  have hfqn : borrowed.lookupContext.fqnFor "r" = "r" := by cbv
  refine ⟨hvalid, hof, p, _, _, hplan,
    List.mem_cons_of_mem _ (List.mem_cons_of_mem _ List.mem_cons_self), ?_,
    List.mem_singleton_self _, readsOutput_borrowed.2, ?_, ?_⟩
  · rw [hdag]
    decide
  · rw [hfqn]
    decide
  · rw [hfqn, hdag]
    decide

/-- The stack that uses the configured name reads from the one that its step depends on. -/
theorem reads_dependencies_borrowed :
    ∃ p, borrowed.buildPlan "one" none = .ok p ∧
      borrowed.lookupContext.fqnFor "x" = "n-r" ∧
      p.graph.dag.Edge "n-b" (borrowed.lookupContext.fqnFor "x") := by
  have hvalid : Config.borrowed.validate = .ok () := by cbv
  obtain ⟨p, hplan, hdag⟩ := exists_plan_borrowed
  have hnode : "n-b" ∈ p.graph.dag.nodes := by
    rw [hdag]
    decide
  obtain ⟨hedge, hsame, -⟩ := reads_dependencies hvalid serves_borrowed hplan
    (List.mem_cons_of_mem _ List.mem_cons_self) hnode (List.mem_singleton_self _)
    readsOutput_borrowed.1
  have hsame := hsame ⟨_, List.mem_cons_self, rfl⟩
  have hfqn : borrowed.fqnFor "x" = "n-r" := by cbv
  refine ⟨p, hplan, hsame.trans hfqn, ?_⟩
  rw [hsame]
  exact hedge.resolve_left fun h => absurd h.1 (by decide)

end Workspace

end Rollout

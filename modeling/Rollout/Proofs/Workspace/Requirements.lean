import Rollout.Proofs.Workspace.Footprint
import Rollout.Proofs.Workspace.Rendering

/-!
# What the stacks of a configuration require

A stack requires another one of its configuration by saying so or by reading an output of it. Its
step needs the step of the other one. A step may need more than that, since an output may be read by
the name that a stack has at the provider.

* `Config.Requires`: one stack requires another.
* `Workspace.Serves`: the workspaces of a configuration, in any environment and with any stacks
  forced. `Workspace.serves_ofConfig`: the one that is made of it.
* `Workspace.Serves.needs_of_requires`: what a stack requires, directly or not, its step needs.
* `Config.ReadsOthers` and `Workspace.Serves.path_of_reads`: a step depends on those of all stacks
  that its stack reads, if these are always other configured ones.
-/

namespace Rollout

/-- A stack requires another one: its definition says so, or its variables read an output. -/
def Config.Requires (c : Config) (name required : String) : Prop :=
  ∃ d ∈ c.definitions, d.name = name ∧ required ≠ d.name ∧
    (required ∈ d.requires ∨ ∃ value ∈ d.vars.values, ReadsOutput value required)

/-- Whatever stack the variables read an output of, it is another one of the configuration. -/
def Config.ReadsOthers (c : Config) : Prop :=
  ∀ d ∈ c.definitions, ∀ value ∈ d.vars.values, ∀ stack, ReadsOutput value stack →
    stack ≠ d.name ∧ ∃ other ∈ c.definitions, other.name = stack

theorem Config.ReadsOthers.readsConfigured {c : Config} (h : c.ReadsOthers) :
    c.ReadsConfigured :=
  fun d hd value hvalue stack hstack => (h d hd value hvalue stack hstack).2

namespace Workspace

/-- The workspace is that of a configuration, in some environment, and some of its stacks may be
forced. -/
def Serves (w : Workspace) (c : Config) : Prop :=
  ∃ base environment forced, ofConfig c = .ok base ∧
    w = withForce { base with environment } forced

/-- The workspace that is made of a configuration is one of them. -/
theorem serves_ofConfig {c : Config} {w : Workspace} (h : ofConfig c = .ok w) : w.Serves c := by
  refine ⟨w, {}, [], h, ?_⟩
  obtain ⟨members, -, hw⟩ := Except.bind_eq_ok_iff.1 h
  cases hw
  simp [withForce]

namespace Serves

variable {c : Config} {w : Workspace} (hw : w.Serves c)
include hw

theorem lookups : w.lookups = .standard := by
  obtain ⟨base, environment, forced, hbase, rfl⟩ := hw
  exact (ofConfig_eq_ok hbase).1

/-- In a sound configuration the stacks have names of their own. -/
theorem nodup_names (hvalid : c.validate = .ok ()) : (w.members.map (·.name)).Nodup := by
  obtain ⟨base, environment, forced, hbase, rfl⟩ := hw
  rw [names_withForce, names_ofConfig hbase]
  exact Config.nodup_names_of_validate hvalid

/-- Each definition has a stack. -/
theorem exists_member {d : StackDefinition} (hd : d ∈ c.definitions) :
    ∃ s ∈ w.members, s.name = d.name ∧ s.vars = d.vars ∧
      Stack.requirements d = .ok s.requires := by
  obtain ⟨base, environment, forced, hbase, rfl⟩ := hw
  obtain ⟨s, hs, hof⟩ := Except.exists_of_mem_mapM_left (ofConfig_eq_ok hbase).2 hd
  obtain ⟨hname, hvars, hrequires⟩ := forced_eq forced s
  obtain ⟨hname', hvars', hrequires'⟩ := Stack.ofDefinition_eq_ok hof
  exact ⟨_, List.mem_map.2 ⟨s, hs, rfl⟩, hname.trans hname', hvars.trans hvars',
    hrequires'.trans (congrArg _ hrequires.symm)⟩

/-- Each stack has a definition. -/
theorem exists_definition {s : Stack} (hs : s ∈ w.members) :
    ∃ d ∈ c.definitions, d.name = s.name ∧ d.vars = s.vars := by
  obtain ⟨base, environment, forced, hbase, rfl⟩ := hw
  obtain ⟨old, hold, rfl⟩ := List.mem_map.1 hs
  obtain ⟨d, hd, hof⟩ := Except.exists_of_mem_mapM (ofConfig_eq_ok hbase).2 hold
  obtain ⟨hname, hvars, -⟩ := forced_eq forced old
  obtain ⟨hname', hvars', -⟩ := Stack.ofDefinition_eq_ok hof
  exact ⟨d, hd, (hname.trans hname').symm, (hvars.trans hvars').symm⟩

theorem fqnFor (hvalid : c.validate = .ok ()) {s : Stack} (hs : s ∈ w.members) :
    w.fqnFor s.name = s.fqn :=
  fqnFor_of_nodup (hw.nodup_names hvalid) hs

theorem wired (hvalid : c.validate = .ok ()) (hreads : c.ReadsConfigured) : w.Wired := by
  obtain ⟨base, environment, forced, hbase, rfl⟩ := hw
  exact ((wired_ofConfig hvalid hreads hbase).withEnvironment environment).withForce forced

/-- What a stack requires by its definition is needed by its step. -/
theorem needs (hvalid : c.validate = .ok ()) {name required : String}
    (h : c.Requires name required) : w.Needs (w.fqnFor name) (w.fqnFor required) := by
  obtain ⟨d, hd, rfl, hne, hreason⟩ := h
  obtain ⟨s, hs, hname, -, hrequires⟩ := hw.exists_member hd
  refine ⟨s, hs, ?_, required, ?_, rfl⟩
  · rw [← hname, hw.fqnFor hvalid hs]
  · rcases hreason with hnamed | ⟨value, hvalue, hreads⟩
    · exact Stack.mem_requirements_of_named hrequires hnamed hne
    · exact Stack.mem_requirements_of_reads hrequires hvalue hreads hne

/-- So it is with what it requires directly or not. -/
theorem needs_of_requires (hvalid : c.validate = .ok ()) {s t : Stack} (hs : s ∈ w.members)
    (ht : t ∈ w.members) (h : Relation.TransGen c.Requires s.name t.name) :
    Relation.TransGen w.Needs s.fqn t.fqn := by
  rw [← hw.fqnFor hvalid hs, ← hw.fqnFor hvalid ht]
  exact h.lift w.fqnFor fun _ _ => hw.needs hvalid

variable {μ : Type} {id description : String} {targets : Option (List String)}
  {action : Stack → Action μ} {memo : μ} {p : Plan μ} {s : Stack}

/-- The step of a stack depends on those of all stacks that this one reads. -/
theorem path_of_reads (hvalid : c.validate = .ok ()) (hreads : c.ReadsOthers)
    (h : w.plan id description targets false action memo = .ok p) (hs : s ∈ w.members)
    (hnode : s.fqn ∈ p.graph.dag.nodes) {fqn : String} (hfqn : w.Reads s fqn) :
    p.graph.dag.Path s.fqn fqn := by
  obtain ⟨value, hvalue, stack, hstack, rfl⟩ := hfqn
  obtain ⟨d, hd, hname, hvars⟩ := hw.exists_definition hs
  rw [← hvars] at hvalue
  obtain ⟨hne, other, hother, rfl⟩ := hreads d hd value hvalue stack hstack
  obtain ⟨t, ht, htname, -⟩ := hw.exists_member hother
  rw [← htname, lookupContext_fqnFor_of_nodup (hw.nodup_names hvalid) ht]
  refine (path_plan_iff h hnode t.fqn).2 (hw.needs_of_requires hvalid hs ht (.single ?_))
  rw [htname]
  exact ⟨d, hd, hname, hne, .inr ⟨value, hvalue, hstack⟩⟩

end Serves

end Workspace

end Rollout

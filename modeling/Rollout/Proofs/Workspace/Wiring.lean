import Rollout.Proofs.Lookup.Reads
import Rollout.Workspace.Basic

/-!
# How the stacks of a workspace are wired

In a workspace that comes from a sound configuration the names of the stacks are distinct, and what
the variables of a stack read belongs to the stack or to one that it requires.

* `Config.ReadsConfigured`: the variables of a configuration read outputs of its own stacks only.
* `Workspace.Wired`: such workspaces, and `Workspace.wired_ofConfig`: where they come from.
* `Workspace.Wired.fqnFor` and `Workspace.Wired.lookupContext_fqnFor`: plans and lookups mean the
  same stack by a name.
-/

namespace Rollout

namespace Config

/-- Whatever stack the variables read an output of, it is configured. -/
def ReadsConfigured (c : Config) : Prop :=
  ∀ d ∈ c.definitions, ∀ value ∈ d.vars.values, ∀ stack, ReadsOutput value stack →
    ∃ other ∈ c.definitions, other.name = stack

theorem nodup_of_nameFault? {used : List String} {definitions : List StackDefinition}
    (h : nameFault? used definitions = none) :
    (definitions.map (·.name)).Nodup ∧ ∀ d ∈ definitions, d.name ∉ used := by
  induction definitions generalizing used with
  | nil => exact ⟨.nil, fun d hd => absurd hd List.not_mem_nil⟩
  | cons d rest ih =>
    rw [nameFault?] at h
    split at h
    · cases h
    · split at h
      · cases h
      · next hnew =>
        obtain ⟨hnodup, hothers⟩ := ih h
        refine ⟨List.nodup_cons.2 ⟨fun hd => ?_, hnodup⟩, fun other hother => ?_⟩
        · obtain ⟨other, hother, hname⟩ := List.mem_map.1 hd
          exact hothers other hother (hname ▸ List.mem_cons_self)
        · rcases List.mem_cons.1 hother with rfl | hother
          · exact hnew
          · exact fun hmem => hothers other hother (List.mem_cons_of_mem _ hmem)

/-- What makes a configuration sound. -/
theorem validate_eq_ok_iff {c : Config} :
    c.validate = .ok () ↔
      Text.isBlankText c.scope = false ∧ nameFault? [] c.definitions = none ∧
        (∀ d ∈ c.definitions, requirementFault? (c.definitions.map (·.name)) d = none) ∧
        c.execution.fault? = none := by
  have hfault : c.validate = .ok () ↔ c.fault? = none := by
    unfold validate
    cases c.fault? <;> simp
  rw [hfault]
  unfold fault?
  cases Text.isBlankText c.scope with
  | true => simp
  | false => simp [Option.or_eq_none_iff, List.findSome?_eq_none_iff]

/-- A configuration without fault has no name twice. -/
theorem nodup_names_of_validate {c : Config} (h : c.validate = .ok ()) :
    (c.definitions.map (·.name)).Nodup :=
  (nodup_of_nameFault? (validate_eq_ok_iff.1 h).2.1).1

/-- What its definitions name is configured. -/
theorem exists_of_named {c : Config} (h : c.validate = .ok ()) {d : StackDefinition}
    (hd : d ∈ c.definitions) {stack : String} (hnamed : stack ∈ d.requires) :
    ∃ other ∈ c.definitions, other.name = stack := by
  have hfault := (validate_eq_ok_iff.1 h).2.2.1 d hd
  unfold requirementFault? at hfault
  rw [Option.map_eq_none_iff, List.find?_eq_none] at hfault
  simpa using hfault stack hnamed

end Config

theorem Stack.ofDefinition_eq_ok {d : StackDefinition} {scope delimiter : String} {s : Stack}
    (h : ofDefinition d scope delimiter = .ok s) :
    s.name = d.name ∧ s.vars = d.vars ∧ requirements d = .ok s.requires := by
  obtain ⟨requires, hrequires, h⟩ := Except.bind_eq_ok_iff.1 h
  cases h
  exact ⟨rfl, rfl, hrequires⟩

namespace Workspace

/-- The lookups are the standard ones, the stacks have names of their own, and what the variables of
a stack read belongs to the stack or to one that it requires. -/
structure Wired (w : Workspace) : Prop where
  lookups : w.lookups = .standard
  nodup_names : (w.members.map (·.name)).Nodup
  reads : ∀ s ∈ w.members, ∀ value ∈ s.vars.values, ∀ stack, ReadsOutput value stack →
    ∃ t ∈ w.members, t.name = stack ∧ (stack = s.name ∨ stack ∈ s.requires)

variable {c : Config} {w : Workspace}

theorem ofConfig_eq_ok (h : ofConfig c = .ok w) :
    w.lookups = .standard ∧
      c.definitions.mapM (fun d => Stack.ofDefinition d c.scope c.delimiter) = .ok w.members := by
  obtain ⟨members, hmembers, h⟩ := Except.bind_eq_ok_iff.1 h
  cases h
  exact ⟨rfl, hmembers⟩

/-- The stacks are called as their definitions are. -/
theorem names_ofConfig (h : ofConfig c = .ok w) :
    w.members.map (·.name) = c.definitions.map (·.name) :=
  Except.map_eq_of_mapM (ofConfig_eq_ok h).2 fun _ _ hs => (Stack.ofDefinition_eq_ok hs).1

theorem wired_ofConfig (hvalid : c.validate = .ok ()) (hreads : c.ReadsConfigured)
    (h : ofConfig c = .ok w) : w.Wired := by
  obtain ⟨hlookups, hmembers⟩ := ofConfig_eq_ok h
  have hnames := names_ofConfig h
  refine
    { lookups := hlookups
      nodup_names := hnames ▸ Config.nodup_names_of_validate hvalid
      reads := fun s hs value hvalue stack hstack => ?_ }
  obtain ⟨d, hd, hof⟩ := Except.exists_of_mem_mapM hmembers hs
  obtain ⟨hname, hvars, hrequires⟩ := Stack.ofDefinition_eq_ok hof
  rw [hvars] at hvalue
  obtain ⟨other, hother, rfl⟩ := hreads d hd value hvalue stack hstack
  have hmem : other.name ∈ w.members.map (·.name) := hnames ▸ List.mem_map.2 ⟨other, hother, rfl⟩
  obtain ⟨t, ht, htname⟩ := List.mem_map.1 hmem
  refine ⟨t, ht, htname, ?_⟩
  rw [hname]
  by_cases hown : other.name = d.name
  · exact .inl hown
  · exact .inr (Stack.mem_requirements_of_reads hrequires hvalue hstack hown)

theorem Wired.withEnvironment (hw : w.Wired) (environment : Environment) :
    Wired { w with environment } :=
  ⟨hw.lookups, hw.nodup_names, hw.reads⟩

/-- Forcing a stack changes neither what it is called nor what it reads and requires. -/
theorem forced_eq (forced : List String) (s : Stack) :
    (if s.name ∈ forced then { s with force := true } else s).name = s.name ∧
      (if s.name ∈ forced then { s with force := true } else s).vars = s.vars ∧
      (if s.name ∈ forced then { s with force := true } else s).requires = s.requires := by
  split <;> exact ⟨rfl, rfl, rfl⟩

theorem names_withForce (w : Workspace) (forced : List String) :
    (w.withForce forced).members.map (·.name) = w.members.map (·.name) := by
  rw [Workspace.withForce, List.map_map]
  exact List.map_congr_left fun t _ => (forced_eq forced t).1

/-- Which stacks are forced plays no role. -/
theorem Wired.withForce (hw : w.Wired) (forced : List String) : (w.withForce forced).Wired := by
  refine
    { lookups := hw.lookups
      nodup_names := names_withForce w forced ▸ hw.nodup_names
      reads := fun s hs value hvalue stack hstack => ?_ }
  obtain ⟨old, hold, rfl⟩ := List.mem_map.1 hs
  rw [(forced_eq forced old).2.1] at hvalue
  obtain ⟨t, ht, rfl, hrequired⟩ := hw.reads old hold value hvalue stack hstack
  refine ⟨_, List.mem_map.2 ⟨t, ht, rfl⟩, (forced_eq forced t).1, ?_⟩
  rw [(forced_eq forced old).1, (forced_eq forced old).2.2]
  exact hrequired

variable {s : Stack}

/-- Where names are distinct, a lookup finds a stack under its name. -/
theorem lookupContext_fqnFor_of_nodup (hnames : (w.members.map (·.name)).Nodup)
    (hs : s ∈ w.members) : w.lookupContext.fqnFor s.name = s.fqn := by
  have hkeys : ((w.members.map fun s => (s.name, s.fqn)).map (·.1)).Nodup := by
    rw [List.map_map]
    exact hnames
  have hfound : w.lookupContext.fqns.get? s.name = some s.fqn :=
    (Table.get?_ofList_eq_some_iff hkeys).2 (List.mem_map.2 ⟨s, hs, rfl⟩)
  rw [LookupContext.fqnFor, hfound, Option.getD_some]

/-- So does the plan. -/
theorem fqnFor_of_nodup (hnames : (w.members.map (·.name)).Nodup) (hs : s ∈ w.members) :
    w.fqnFor s.name = s.fqn := by
  rw [Workspace.fqnFor, stack?]
  cases hfind : w.members.find? (·.name == s.name) with
  | none => exact absurd (List.find?_eq_none.1 hfind s hs) (by simp)
  | some t =>
    have hname : t.name = s.name := by simpa using List.find?_some hfind
    have hfound := lookupContext_fqnFor_of_nodup hnames (List.mem_of_find?_eq_some hfind)
    rw [hname, lookupContext_fqnFor_of_nodup hnames hs] at hfound
    exact hfound.symm

namespace Wired

theorem lookupContext_fqnFor (hw : w.Wired) (hs : s ∈ w.members) :
    w.lookupContext.fqnFor s.name = s.fqn :=
  lookupContext_fqnFor_of_nodup hw.nodup_names hs

theorem fqnFor (hw : w.Wired) (hs : s ∈ w.members) : w.fqnFor s.name = s.fqn :=
  fqnFor_of_nodup hw.nodup_names hs

end Wired

end Workspace

end Rollout

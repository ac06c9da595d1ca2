import Rollout.Proofs.Data.Except
import Rollout.Proofs.Data.Table
import Rollout.Proofs.Plan.Footprint
import Rollout.Stack.Basic

/-!
# Which outputs a text reads

The stacks whose outputs the variables of a stack read can be told before anything is resolved. They
are among the stacks that are required, and the lookups ask for the outputs of no others.

* `ReadsOutput`: a text reads an output of a stack.
* `Stack.mem_requirements_of_reads`: what the variables read is required, unless it is the stack's
  own, and `Stack.mem_requirements_of_named`: so is what the definition names.
* `LookupRegistry.keepsTo_resolveAll`: the standard lookups ask for nothing else.
-/

namespace Rollout

/-- Among the lookups of a text there is one for an output of a stack. -/
def ReadsOutput (text stack : String) : Prop :=
  ∃ tokens argument key, tokenize text = .ok tokens ∧ .lookup "output" argument ∈ tokens ∧
    splitOutput argument = .ok (stack, key)

/-! ## Reads are required -/

theorem mem_addOnce_iff {names : List String} {stack name : String} :
    name ∈ addOnce names stack ↔ name ∈ names ∨ name = stack := by
  rw [addOnce]
  split
  · next h =>
    refine ⟨.inl, ?_⟩
    rintro (hname | rfl)
    · exact hname
    · exact h
  · rw [List.mem_append, List.mem_singleton]

theorem mem_foldl_addOnce_iff {names new : List String} {name : String} :
    name ∈ new.foldl addOnce names ↔ name ∈ names ∨ name ∈ new := by
  induction new generalizing names with
  | nil => simp
  | cons stack new ih => rw [List.foldl_cons, ih, mem_addOnce_iff, List.mem_cons, or_assoc]

/-- The stacks that a text reads are all found. -/
theorem mem_outputStacks_of_reads {text stack : String} {found : List String}
    (h : outputStacks text = .ok found) (hreads : ReadsOutput text stack) : stack ∈ found := by
  obtain ⟨tokens, argument, key, htokens, hmem, hsplit⟩ := hreads
  rw [outputStacks, htokens] at h
  obtain ⟨-, hfound⟩ := Except.subset_of_foldlM_ok h fun names token next hnext => by
    split at hnext
    · obtain ⟨_, -, rfl⟩ := Except.map_eq_ok_iff.1 hnext
      exact fun name hname => mem_addOnce_iff.2 (.inl hname)
    · cases hnext
      exact fun _ hname => hname
  obtain ⟨names, next, hnext, hsub⟩ := hfound _ hmem
  obtain ⟨_, hsplit', rfl⟩ := Except.map_eq_ok_iff.1 hnext
  cases hsplit.symm.trans hsplit'
  exact hsub (mem_addOnce_iff.2 (.inr rfl))

/-- A definition requires the stacks that its variables read, its own excepted. -/
theorem Stack.mem_requirements_of_reads {d : StackDefinition} {requires : List String}
    (h : requirements d = .ok requires) {value stack : String} (hvalue : value ∈ d.vars.values)
    (hreads : ReadsOutput value stack) (hne : stack ≠ d.name) : stack ∈ requires := by
  obtain ⟨all, hall, rfl⟩ := Except.map_eq_ok_iff.1 h
  obtain ⟨-, hsteps⟩ := Except.subset_of_foldlM_ok hall fun names text next hnext => by
    obtain ⟨_, -, rfl⟩ := Except.map_eq_ok_iff.1 hnext
    exact fun name hname => mem_foldl_addOnce_iff.2 (.inl hname)
  obtain ⟨names, next, hnext, hsub⟩ := hsteps value hvalue
  obtain ⟨found, hfound, rfl⟩ := Except.map_eq_ok_iff.1 hnext
  refine List.mem_filter.2 ⟨hsub (mem_foldl_addOnce_iff.2 (.inr ?_)), by simpa using hne⟩
  exact mem_outputStacks_of_reads hfound hreads

/-- It also requires the stacks that it names itself. -/
theorem Stack.mem_requirements_of_named {d : StackDefinition} {requires : List String}
    (h : requirements d = .ok requires) {stack : String} (hnamed : stack ∈ d.requires)
    (hne : stack ≠ d.name) : stack ∈ requires := by
  obtain ⟨all, hall, rfl⟩ := Except.map_eq_ok_iff.1 h
  obtain ⟨hsub, -⟩ := Except.subset_of_foldlM_ok hall fun names text next hnext => by
    obtain ⟨_, -, rfl⟩ := Except.map_eq_ok_iff.1 hnext
    exact fun name hname => mem_foldl_addOnce_iff.2 (.inl hname)
  exact List.mem_filter.2 ⟨hsub hnamed, by simpa using hne⟩

/-! ## What the standard lookups ask for -/

namespace LookupRegistry

variable {own : String} {mayRead : String → Prop} {ctx : LookupContext}

theorem get?_standard (kind : String) :
    standard.get? kind =
      if kind = "output" then some .output
      else if kind = "env" then some .environment else none := by
  rw [get?, standard, Table.get?_insert, Table.get?_insert, Table.get?_empty]

theorem keepsTo_resolveToken {token : Token}
    (h : ∀ argument stack key, token = .lookup "output" argument →
      splitOutput argument = .ok (stack, key) →
      (Request.outputs (ctx.fqnFor stack)).KeepsTo own mayRead) :
    (standard.resolveToken ctx token).run.KeepsTo own mayRead := by
  cases token with
  | literal text => exact Job.keepsTo_done _
  | lookup kind argument =>
    rw [resolveToken, get?_standard]
    by_cases houtput : kind = "output"
    · subst houtput
      rw [if_pos rfl]
      refine Job.keepsTo_mk_bind fun (stack, key) hsplit => ?_
      refine Job.keepsTo_bind_run (Job.keepsTo_request (h argument stack key rfl hsplit)) ?_
      intro outputs
      split
      · exact Job.keepsTo_done _
      · exact Job.keepsTo_done _
    · rw [if_neg houtput]
      by_cases henv : kind = "env"
      · rw [if_pos henv]
        exact Job.keepsTo_done _
      · rw [if_neg henv]
        exact Job.keepsTo_done _

theorem keepsTo_resolveTokens {tokens : List Token}
    (h : ∀ argument stack key, .lookup "output" argument ∈ tokens →
      splitOutput argument = .ok (stack, key) →
      (Request.outputs (ctx.fqnFor stack)).KeepsTo own mayRead) :
    (standard.resolveTokens ctx tokens).run.KeepsTo own mayRead := by
  induction tokens with
  | nil => exact Job.keepsTo_done _
  | cons token rest ih =>
    rw [resolveTokens]
    refine Job.keepsTo_bind_run (keepsTo_resolveToken fun argument stack key htoken =>
      h argument stack key (htoken ▸ List.mem_cons_self)) fun found => ?_
    refine Job.keepsTo_bind_run (ih fun argument stack key hmem =>
      h argument stack key (List.mem_cons_of_mem _ hmem)) fun others => ?_
    exact Job.keepsTo_done _

/-- The variables of a stack are resolved by asking for outputs of the stacks that they read. -/
theorem keepsTo_resolveAll {vars : Table String}
    (h : ∀ value ∈ vars.values, ∀ stack, ReadsOutput value stack →
      (Request.outputs (ctx.fqnFor stack)).KeepsTo own mayRead) :
    (standard.resolveAll ctx vars).run.KeepsTo own mayRead := by
  rw [resolveAll]
  refine Job.keepsTo_bind_run (Job.keepsTo_mapM_run fun (name, value) hmem => ?_) fun resolved =>
    Job.keepsTo_done _
  have hvalue : value ∈ vars.values := List.mem_map.2 ⟨(name, value), hmem, rfl⟩
  refine Job.keepsTo_bind_run (Job.keepsTo_mk_bind fun tokens htokens => ?_) fun found =>
    Job.keepsTo_done _
  exact keepsTo_resolveTokens fun argument stack key hread hsplit =>
    h value hvalue stack ⟨tokens, argument, key, htokens, hread, hsplit⟩

end LookupRegistry

end Rollout

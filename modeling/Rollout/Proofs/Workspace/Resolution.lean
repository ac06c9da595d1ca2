import Rollout.Proofs.Lookup.Extraction
import Rollout.Proofs.Lookup.Seam
import Rollout.Proofs.Plan.Transcript
import Rollout.Proofs.Workspace.Rendering

/-!
# How the resolution of a stack fails

When a stack is made of a definition, its variables are taken apart to find what they read. When the
stack is resolved they are taken apart again. What was readable the first time is readable the
second time, so resolving fails for other reasons only.

* `Misreading`: the errors of texts that cannot be read.
* `LookupRegistry.Refusal`: how the standard lookups fail on what they can read.
* `Job.FailsWith`: how a job can fail, whatever it is answered. `failsWith_bind_run` and the like:
  how such jobs are put together.
* `LookupRegistry.failsWith_resolveAll`: how the standard lookups fail on readable variables.
* `Stack.resolve_reads_required`: what a stack requires, what it asks for when it is resolved, and
  how that fails.
-/

namespace Rollout

/-- The errors of texts that cannot be taken apart, and of output lookups that name no stack or no
output. -/
inductive Misreading : Error → Prop where
  | text (text : String) (fault : Token.Fault) : Misreading (fault.toError text)
  | argument (argument : String) : Misreading (splitOutput.malformed argument)

namespace LookupRegistry

/-- The errors of the standard lookups on what they can read: there is no lookup of a kind, a
variable of the environment is missing, a stack lacks an output. -/
inductive Refusal (environment : Environment) : Error → Prop where
  | kind (kind : String) : Refusal environment (.lookup kind "unknown lookup type")
  | environment (argument : String) (e : Error)
      (missing : Lookup.environmentValue environment argument = .error e) : Refusal environment e
  | output (fqn key : String) :
      Refusal environment (.lookup "output" ("stack " ++ fqn ++ " has no output '" ++ key ++ "'"))

end LookupRegistry

/-- The lookup for variables of the environment fails in its own name. -/
theorem Lookup.environmentValue_eq_error {environment : Environment} {argument : String} {e : Error}
    (h : environmentValue environment argument = .error e) : ∃ text, e = .lookup "env" text := by
  unfold environmentValue at h
  split at h
  split at h
  · cases h
    exact ⟨_, rfl⟩
  · split at h
    · cases h
    · cases h
    · cases h
      exact ⟨_, rfl⟩

/-- None of these is the error of a text that cannot be read. -/
theorem LookupRegistry.Refusal.not_misreading {environment : Environment} {e : Error}
    (h : Refusal environment e) : ¬ Misreading e := by
  intro hmisreading
  obtain ⟨kind, text, rfl, hkind⟩ : ∃ kind text, e = .lookup kind text ∧
      (kind = "parse" ∧ text.toList.take 3 ≠ "unk".toList ∨
        kind = "output" ∧ text.toList.head? = some 'e') := by
    cases hmisreading with
    | text text fault => cases fault <;> exact ⟨_, _, rfl, .inl ⟨rfl, by simp⟩⟩
    | argument argument => exact ⟨_, _, rfl, .inr ⟨rfl, by simp⟩⟩
  cases h with
  | kind => simp at hkind
  | environment argument _ missing =>
    obtain ⟨_, htext⟩ := Lookup.environmentValue_eq_error missing
    cases htext
    simp at hkind
  | output => simp at hkind

/-! ## Jobs that fail in known ways -/

namespace Job

variable {α β : Type} {own own' : Error → Prop}

/-- An error is what a request was answered with. -/
def Answered (exchanges : List Exchange) (e : Error) : Prop :=
  ∃ request, ⟨request, .answer (.error e)⟩ ∈ exchanges

/-- Whatever the job is answered, it fails in ways of its own or with an answer that it got. -/
def FailsWith (own : Error → Prop) (job : Job (Except Error α)) : Prop :=
  ∀ exchanges, job.Upholds (fun _ => True) (fun result exchanges =>
    ∀ e, result = .ok (.error e) → own e ∨ Answered exchanges e) exchanges

theorem FailsWith.went {job : Job (Except Error α)} (h : job.FailsWith own)
    {exchanges : List Exchange} {e : Error} (hwent : job.Went exchanges (.done (.error e))) :
    own e ∨ Answered exchanges e :=
  ((h []).went hwent).2 e rfl

theorem FailsWith.mono {job : Job (Except Error α)} (h : job.FailsWith own)
    (hmore : ∀ e, own e → own' e) : job.FailsWith own' :=
  fun exchanges => (h exchanges).mono (fun _ => id) fun _ _ _ hfails e he =>
    (hfails e he).imp_left (hmore e)

/-- A value, or a failure of its own. -/
theorem failsWith_mk {x : Except Error α} (h : ∀ e, x = .error e → own e) :
    (ExceptT.mk (pure x : Job _)).run.FailsWith own := by
  refine fun exchanges => ⟨trivial, fun e he => .inl (h e ?_)⟩
  cases he
  rfl

theorem failsWith_pure (value : α) : (pure value : ExceptT Error Job α).run.FailsWith own :=
  failsWith_mk fun _ => nofun

/-- A request fails with its answer. -/
theorem failsWith_request (request : Request) : (Job.request request).run.FailsWith own := by
  refine fun exchanges => ⟨trivial, fun message => ⟨trivial, fun _ => nofun⟩, ?_⟩
  refine fun result => ⟨trivial, fun e he => .inr ⟨request, ?_⟩⟩
  cases he
  exact List.mem_cons_self

/-- A job that goes on only if the one before did not fail. -/
theorem failsWith_bind_run {job : ExceptT Error Job α} {f : α → ExceptT Error Job β}
    (h : job.run.FailsWith own) (hf : ∀ a, (f a).run.FailsWith own) :
    (job >>= f).run.FailsWith own := by
  refine fun exchanges => upholds_bind_run (h exchanges) (fun a exchanges _ _ => hf a exchanges)
    (fun e exchanges _ hfail other hother => ?_) (fun message exchanges _ _ => nofun)
  cases hother
  exact hfail e rfl

/-- A job that goes on with a value, which there is. -/
theorem failsWith_mk_bind {x : Except Error α} {f : α → ExceptT Error Job β} {a : α}
    (h : x = .ok a) (hf : (f a).run.FailsWith own) :
    (ExceptT.mk (pure x) >>= f).run.FailsWith own := by
  subst h
  exact hf

/-- One such job for each member of a list. -/
theorem failsWith_mapM_run {f : α → ExceptT Error Job β} {l : List α}
    (h : ∀ a ∈ l, (f a).run.FailsWith own) : (l.mapM f).run.FailsWith own :=
  mapM_induction (P := fun {_} job => job.run.FailsWith own) failsWith_pure failsWith_bind_run h

end Job

/-! ## Failures of the standard lookups -/

namespace LookupRegistry

variable {ctx : LookupContext}

theorem failsWith_resolveToken {token : Token}
    (h : ∀ argument, token = .lookup "output" argument → NamesOutput argument) :
    (standard.resolveToken ctx token).run.FailsWith (Refusal ctx.environment) := by
  cases token with
  | literal text => exact Job.failsWith_pure text
  | lookup kind argument =>
    rw [resolveToken, get?_standard]
    by_cases houtput : kind = "output"
    · subst houtput
      rw [if_pos rfl]
      obtain ⟨sides, hsplit⟩ := exists_splitOutput_iff.2 (h argument rfl)
      refine Job.failsWith_mk_bind hsplit (Job.failsWith_bind_run (Job.failsWith_request _) ?_)
      intro outputs
      split
      · exact Job.failsWith_pure _
      · refine Job.failsWith_mk fun e he => ?_
        cases he
        exact .output _ _
    · rw [if_neg houtput]
      by_cases henv : kind = "env"
      · rw [if_pos henv]
        exact Job.failsWith_mk fun e he => .environment argument e he
      · rw [if_neg henv]
        refine Job.failsWith_mk fun e he => ?_
        cases he
        exact .kind kind

theorem failsWith_resolveTokens {tokens : List Token}
    (h : ∀ argument, .lookup "output" argument ∈ tokens → NamesOutput argument) :
    (standard.resolveTokens ctx tokens).run.FailsWith (Refusal ctx.environment) := by
  induction tokens with
  | nil => exact Job.failsWith_pure _
  | cons token rest ih =>
    rw [resolveTokens]
    refine Job.failsWith_bind_run (failsWith_resolveToken fun argument htoken =>
      h argument (htoken ▸ List.mem_cons_self)) fun found => ?_
    refine Job.failsWith_bind_run (ih fun argument hmem =>
      h argument (List.mem_cons_of_mem _ hmem)) fun others => ?_
    exact Job.failsWith_pure _

/-- A readable text is resolved unless a lookup in it refuses or the provider does. -/
theorem failsWith_resolve {value : String} (h : Readable value) :
    (standard.resolve ctx value).run.FailsWith (Refusal ctx.environment) := by
  obtain ⟨tokens, htokens, hnames⟩ := h
  exact Job.failsWith_mk_bind htokens (failsWith_resolveTokens hnames)

/-- So are readable variables. -/
theorem failsWith_resolveAll {vars : Table String} (h : ∀ value ∈ vars.values, Readable value) :
    (standard.resolveAll ctx vars).run.FailsWith (Refusal ctx.environment) := by
  rw [resolveAll]
  refine Job.failsWith_bind_run (Job.failsWith_mapM_run fun binding hbinding => ?_)
    fun resolved => Job.failsWith_pure _
  have hvalue : binding.2 ∈ vars.values := List.mem_map.2 ⟨binding, hbinding, rfl⟩
  exact Job.failsWith_bind_run (failsWith_resolve (h binding.2 hvalue)) fun found =>
    Job.failsWith_pure _

end LookupRegistry

/-! ## Stacks -/

namespace Stack

variable {d : StackDefinition} {scope delimiter : String} {s : Stack}

/-- Resolving a stack with readable variables fails if a lookup, the provider or the blueprint
does. -/
theorem failsWith_resolve (h : ∀ value ∈ s.vars.values, Readable value)
    (blueprints : BlueprintRegistry) (ctx : LookupContext) :
    (s.resolve .standard blueprints ctx).run.FailsWith fun e =>
      LookupRegistry.Refusal ctx.environment e ∨
        ∃ vars, blueprints.render s.blueprint ⟨s.name, s.templateBody, vars⟩ = .error e :=
  Job.failsWith_bind_run ((LookupRegistry.failsWith_resolveAll h).mono fun _ => .inl) fun vars =>
    Job.failsWith_mk fun _ he => .inr ⟨vars, he⟩

/-- A stack that was made of a definition requires what the definition names and what its variables
read, itself excepted. When it is resolved with the standard lookups, nothing is asked but outputs
of what it requires and of itself; and if that fails, no text was found unreadable, unless the
provider or the blueprint says so. -/
theorem resolve_reads_required (made : ofDefinition d scope delimiter = .ok s) :
    (∀ name, name ∈ s.requires ↔
      name ≠ s.name ∧ (name ∈ d.requires ∨ ∃ value ∈ d.vars.values, ReadsOutput value name)) ∧
    ∀ blueprints ctx,
      (∀ request, (s.resolve .standard blueprints ctx).run.Asks request →
        ∃ name, (name ∈ s.requires ∨ name = s.name) ∧ request = .outputs (ctx.fqnFor name)) ∧
      ∀ exchanges e, (s.resolve .standard blueprints ctx).run.Went exchanges (.done (.error e)) →
        ¬ Misreading e ∨ Job.Answered exchanges e ∨
          ∃ vars, blueprints.render s.blueprint ⟨s.name, s.templateBody, vars⟩ = .error e := by
  obtain ⟨hname, hvars, hrequires⟩ := ofDefinition_eq_ok made
  have hmem : ∀ name, name ∈ s.requires ↔
      name ≠ s.name ∧ (name ∈ d.requires ∨ ∃ value ∈ d.vars.values, ReadsOutput value name) :=
    fun name => hname ▸ mem_requirements_iff hrequires
  refine ⟨hmem, fun blueprints ctx => ⟨fun request hasks => ?_, fun exchanges e hwent => ?_⟩⟩
  · obtain ⟨_, ⟨value, hvalue, name, hreads, rfl⟩, hrequest⟩ :=
      s.readsOnly_resolve blueprints ctx request hasks
    rw [hvars] at hvalue
    refine ⟨name, ?_, hrequest⟩
    by_cases hown : name = s.name
    · exact .inr hown
    · exact .inl ((hmem name).2 ⟨hown, .inr ⟨value, hvalue, hreads⟩⟩)
  · have hreadable := exists_ofDefinition_iff.1 ⟨s, made⟩
    rw [← hvars] at hreadable
    rcases (failsWith_resolve hreadable blueprints ctx).went hwent with
      (hrefusal | hrejects) | hanswered
    · exact .inl hrefusal.not_misreading
    · exact .inr (.inr hrejects)
    · exact .inr (.inl hanswered)

end Stack

/-- A definition whose variable reads an output of another stack and one of its own. -/
def StackDefinition.spaced : StackDefinition where
  name := "web"
  requires := ["base"]
  vars := .ofList [("address", "$\x7boutput  net :: Subnet\x7d/$\x7boutput web::Url\x7d")]
  templateBody := some "t"

namespace Stack

/-- The stack of that definition. -/
def spaced : Stack :=
  ⟨"web", "n-web", "inline", some "t", ["base", "net"], StackDefinition.spaced.vars, .empty, true,
    false, false⟩

theorem ofDefinition_spaced : ofDefinition .spaced "n" "-" = .ok spaced := by decide +kernel

theorem tokenize_spaced :
    tokenize "$\x7boutput  net :: Subnet\x7d/$\x7boutput web::Url\x7d" =
      .ok [.lookup "output" "net :: Subnet", .literal "/", .lookup "output" "web::Url"] := by
  decide +kernel

theorem splitOutput_spaced : splitOutput "net :: Subnet" = .ok ("net", "Subnet") := by
  decide +kernel

/-- Nothing but the output of the other stack is asked for if that stack does not have it. -/
theorem run_resolve_spaced :
    ∃ next, (spaced.resolve .standard .empty {}).run = .ask (.outputs "net") next ∧
      next (.ok .empty) =
        .done (.error (.lookup "output" "stack net has no output 'Subnet'")) := by
  have hvars : spaced.vars.toList =
      [("address", "$\x7boutput  net :: Subnet\x7d/$\x7boutput web::Url\x7d")] := rfl
  rw [resolve, LookupRegistry.resolveAll, hvars]
  simp only [List.mapM_cons, List.mapM_nil, LookupRegistry.resolve_of_tokenize tokenize_spaced,
    LookupRegistry.resolveTokens]
  unfold LookupRegistry.resolveToken
  simp only [LookupRegistry.get?_standard, if_true, Lookup.output, splitOutput_spaced]
  exact ⟨_, rfl, rfl⟩

/-- It requires the other stack and not itself. If the output is not there, that is what is said. -/
theorem resolve_reads_required_spaced :
    ∃ s, ofDefinition .spaced "n" "-" = .ok s ∧ "net" ∈ s.requires ∧ "web" ∉ s.requires ∧
      ∃ exchanges e, (s.resolve .standard .empty {}).run.Went exchanges (.done (.error e)) ∧
        ⟨.outputs "net", .answer (.ok .empty)⟩ ∈ exchanges ∧ ¬ Misreading e := by
  obtain ⟨hmem, hresolve⟩ := resolve_reads_required ofDefinition_spaced
  have hreads : ReadsOutput "$\x7boutput  net :: Subnet\x7d/$\x7boutput web::Url\x7d" "net" :=
    ⟨_, _, _, tokenize_spaced, List.mem_cons_self, splitOutput_spaced⟩
  have hnet : "net" ∈ spaced.requires :=
    (hmem "net").2 ⟨by decide, .inr ⟨_, List.mem_cons_self, hreads⟩⟩
  have hweb : "web" ∉ spaced.requires := fun h => ((hmem "web").1 h).1 rfl
  obtain ⟨next, hrun, hnext⟩ := run_resolve_spaced
  have hwent : (spaced.resolve .standard .empty {}).run.Went
      [⟨.outputs "net", .answer (.ok .empty)⟩]
      (.done (.error (.lookup "output" "stack net has no output 'Subnet'"))) := by
    rw [hrun, ← hnext]
    exact .ask .start _
  refine ⟨spaced, ofDefinition_spaced, hnet, hweb, _, _, hwent, List.mem_cons_self, ?_⟩
  rcases (hresolve .empty {}).2 _ _ hwent with h | ⟨request, hanswered⟩ | ⟨vars, hrejects⟩
  · exact h
  · cases List.mem_singleton.1 hanswered
  · cases hrejects

end Stack

end Rollout

import Rollout.Plan.Action
import Rollout.Proofs.Plan.Stride

/-!
# How far a step has come

A step in a run has come as far as its action comes by itself, when it is called again and again in
a world of its own. That world is asked what the run asks the provider on behalf of the step, and
nothing else.

* `Step.after`: what some calls of the action of a step leave, when nobody else is there.
* `Run.Progress`: a step between two calls, or inside of one, and the world of its own.
* `Run.Progress.of_idle`, `Run.Progress.of_call`: which of the two it is.
* `Run.Progress.stride`: a turn of the worker takes the step further, if the two worlds reply the
  same.
-/

namespace Rollout

variable {μ σ : Type}

/-- What the first calls of the action of a step leave, in a world where nobody else calls. -/
def Step.after (provider : Provider σ) (step : Step μ) (world : σ) (n : Nat) : Iteration μ σ :=
  Iteration.calls provider step.action n ⟨step.memo, step.status, world⟩

theorem Step.after_succ (provider : Provider σ) (step : Step μ) (world : σ) (n : Nat) :
    step.after provider world (n + 1) = (step.after provider world n).call provider step.action :=
  rfl

/-- A call that ends leaves what it ends with. -/
theorem Iteration.call_of_ok {provider : Provider σ} {action : Action μ} {i : Iteration μ σ}
    {world : σ} {memo : μ} {outcome : Outcome}
    (h : (action.advance i.memo i.status).perform provider i.world =
      (world, .ok (memo, outcome))) :
    i.call provider action = ⟨memo, outcome.status, world⟩ := by
  rw [call, h]

/-- A call over which the provider breaks down leaves the memo as it was. -/
theorem Iteration.call_of_error {provider : Provider σ} {action : Action μ} {i : Iteration μ σ}
    {world : σ} {message : Option String}
    (h : (action.advance i.memo i.status).perform provider i.world = (world, .error message)) :
    i.call provider action = ⟨i.memo, (Outcome.crash message).status, world⟩ := by
  rw [call, h]

namespace Run

/-- A step of a run has come as far as some calls of its action by itself, and `own` is the world
that these have left, or the call that is under way has left so far. No call was made of a step that
was done. -/
inductive Progress (provider : Provider σ) (r : Run μ σ) (name : String) (first : Step μ)
    (start own : σ) : Prop where
  /-- Some calls have ended. The run may have been called off since. -/
  | between (n : Nat) (idle : r.job? name = none)
      (early : ∀ k < n, (first.after provider start k).status.isDone = false)
      (memo : r.memo? name = some (first.after provider start n).memo)
      (status : r.status? name = some (first.after provider start n).status ∨
        r.cancelled = true ∧ r.status? name = some (.cancelled (some "interrupted")))
      (world : own = (first.after provider start n).world)
      (waits : r.Waits name → ∃ status, r.status? name = some status ∧ status.isDone = false)
  /-- Another call is under way, and what is left of it ends like the whole call. -/
  | inside (n : Nat) {job : Job (μ × Outcome)} (call : r.job? name = some job)
      (early : ∀ k ≤ n, (first.after provider start k).status.isDone = false)
      (memo : r.memo? name = some (first.after provider start n).memo)
      (status : r.status? name = some (first.after provider start n).status)
      (rest : job.perform provider own =
        (first.action.advance (first.after provider start n).memo
          (first.after provider start n).status).perform provider
            (first.after provider start n).world)

namespace Progress

variable {provider : Provider σ} {r s : Run μ σ} {name : String} {first step : Step μ}
  {start own : σ}

/-- The progress of a step is a matter of the step and of its worker. -/
theorem congr (h : Progress provider r name first start own) (hjob : s.job? name = r.job? name)
    (hstep : s.step? name = r.step? name) (hwaits : s.Waits name → r.Waits name)
    (hcancelled : r.cancelled = true → s.cancelled = true) :
    Progress provider s name first start own := by
  have hmemo : s.memo? name = r.memo? name := by rw [memo?, memo?, hstep]
  have hstatus : s.status? name = r.status? name := by rw [status?, status?, hstep]
  cases h with
  | between n idle early memo status world waits =>
    refine .between n (hjob.trans idle) early (hmemo.trans memo) ?_ world fun h => ?_
    · rw [hstatus]
      exact status.imp_right fun h => ⟨hcancelled h.1, h.2⟩
    · rw [hstatus]
      exact waits (hwaits h)
  | inside n call early memo status rest =>
    exact .inside n (hjob.trans call) early (hmemo.trans memo) (hstatus.trans status) rest

/-- A step that nobody has called yet. -/
theorem fresh (hjob : r.job? name = none) (hstep : r.step? name = some first)
    (hwaits : ¬ r.Waits name) (start : σ) : Progress provider r name first start start :=
  .between 0 hjob nofun (memo?_eq_some hstep) (.inl (status?_eq_some hstep)) rfl
    fun h => absurd h hwaits

/-- A step without a call under way stands between two calls. -/
theorem of_idle (h : Progress provider r name first start own) (idle : r.job? name = none) :
    ∃ n, (∀ k < n, (first.after provider start k).status.isDone = false) ∧
      r.memo? name = some (first.after provider start n).memo ∧
      (r.status? name = some (first.after provider start n).status ∨
        r.cancelled = true ∧ r.status? name = some (.cancelled (some "interrupted"))) ∧
      own = (first.after provider start n).world ∧
      (r.Waits name → ∃ status, r.status? name = some status ∧ status.isDone = false) := by
  cases h with
  | between n _ early memo status world waits => exact ⟨n, early, memo, status, world, waits⟩
  | inside n call _ _ _ _ =>
    rw [idle] at call
    cases call

/-- A call that is under way is the next one, and what is left of it ends like the whole call. -/
theorem of_call (h : Progress provider r name first start own) {job : Job (μ × Outcome)}
    (call : r.job? name = some job) :
    ∃ n, (∀ k ≤ n, (first.after provider start k).status.isDone = false) ∧
      r.memo? name = some (first.after provider start n).memo ∧
      r.status? name = some (first.after provider start n).status ∧
      job.perform provider own =
        (first.action.advance (first.after provider start n).memo
          (first.after provider start n).status).perform provider
            (first.after provider start n).world := by
  cases h with
  | between n idle _ _ _ _ _ =>
    rw [call] at idle
    cases idle
  | inside n call' early memo status rest =>
    obtain rfl := Option.some.inj (call.symm.trans call')
    exact ⟨n, early, memo, status, rest⟩

/-- Where the call under way goes on, and what is left of it still ends in the same way, the step is
inside of this call. -/
theorem goesOn (h : Progress provider r name first start own) (hs : r.step? name = some step)
    {job job' : Job (μ × Outcome)} {own' : σ} (before : r.job? name = some job)
    (after : s.job? name = some job')
    (same : job'.perform provider own' = job.perform provider own)
    (memo : s.memo? name = some step.memo) (status : s.status? name = some step.status) :
    Progress provider s name first start own' := by
  obtain ⟨n, early, memo', status', rest⟩ := h.of_call before
  exact .inside n after early (memo.trans ((memo?_eq_some hs).symm.trans memo'))
    (status.trans ((status?_eq_some hs).symm.trans status')) (same.trans rest)

/-- Where the call under way ends, one call more has been made. -/
theorem ends {n : Nat} {memo : μ} {status : Status} {world : σ}
    (early : ∀ k ≤ n, (first.after provider start k).status.isDone = false)
    (hnext : (first.after provider start n).call provider first.action = ⟨memo, status, world⟩)
    (after : s.job? name = none) (hmemo : s.memo? name = some memo)
    (hstatus : s.status? name = some status) (waits : ¬ s.Waits name) :
    Progress provider s name first start world := by
  rw [← Step.after_succ] at hnext
  refine .between (n + 1) after (fun k hk => early k (Nat.le_of_lt_succ hk)) ?_ (.inl ?_) ?_
    fun h => absurd h waits
  · rw [hnext, hmemo]
  · rw [hnext, hstatus]
  · rw [hnext]

/-- A worker that is not inside of a call waits, or ends. -/
theorem rests (h : Progress provider r name first start own) (hs : r.step? name = some step)
    (hcancelled : r.cancelled = true → s.cancelled = true) (before : r.job? name = none)
    (after : s.job? name = none) (memo : s.memo? name = some step.memo)
    (status : s.status? name = some step.status ∨
      r.cancelled = true ∧ s.status? name = some (.cancelled (some "interrupted")))
    (waits : s.Waits name →
      s.status? name = some step.status ∧ (step.status.isDone = false ∨ r.Waits name)) :
    Progress provider s name first start own := by
  obtain ⟨n, early, memo', status', own', waits'⟩ := h.of_idle before
  have hstatus := status?_eq_some hs
  refine .between n after early (memo.trans ((memo?_eq_some hs).symm.trans memo')) ?_ own'
    fun hwaiting => ?_
  · rcases status with same | ⟨hc, interrupted⟩
    · rw [same, ← hstatus]
      exact status'.imp_right fun h => ⟨hcancelled h.1, h.2⟩
    · exact .inr ⟨hcancelled hc, interrupted⟩
  · obtain ⟨same, hopen | hwaited⟩ := waits hwaiting
    · exact ⟨step.status, same, hopen⟩
    · rw [same, ← hstatus]
      exact waits' hwaited

/-- The next call begins. -/
theorem begins (h : Progress provider r name first start own) (hs : r.step? name = some step)
    (haction : step.action = first.action) (before : r.job? name = none) (waited : r.Waits name)
    (after : s.job? name = some (step.action.advance step.memo step.status))
    (memo : s.memo? name = some step.memo) (status : s.status? name = some step.status) :
    Progress provider s name first start own := by
  obtain ⟨n, early, memo', status', own', waits'⟩ := h.of_idle before
  have hstatus := status?_eq_some hs
  -- A step that waits is not done, so nobody has called the run off over it.
  obtain ⟨found, hfound, hopen⟩ := waits' waited
  obtain rfl := Option.some.inj (hstatus.symm.trans hfound)
  have hsame : step.status = (first.after provider start n).status := by
    rcases status' with same | ⟨-, interrupted⟩
    · exact Option.some.inj (hstatus.symm.trans same)
    · rw [Option.some.inj (hstatus.symm.trans interrupted)] at hopen
      cases hopen
  have hremembers : step.memo = (first.after provider start n).memo :=
    Option.some.inj ((memo?_eq_some hs).symm.trans memo')
  refine .inside n after (fun k hk => ?_) (memo.trans (congrArg some hremembers))
    (status.trans (congrArg some hsame)) ?_
  · rcases Nat.lt_or_eq_of_le hk with hk | rfl
    · exact early k hk
    · rw [← hsame]
      exact hopen
  · rw [haction, hsame, hremembers, own']

/-- A turn of its worker takes a step further. Either nothing is asked, or the request that is next
is made in both worlds, which reply the same. -/
theorem stride (h : Progress provider r name first start own) (hs : r.step? name = some step)
    (haction : step.action = first.action) (hcancelled : r.cancelled = true → s.cancelled = true)
    (turn : Stride provider r s name step)
    (hreply : ∀ request next, r.job? name = some (.ask request next) →
      (provider.respond own request).2 = (provider.respond r.world request).2) :
    (s.world = r.world ∧ Progress provider s name first start own) ∨
      ∃ request next, r.job? name = some (.ask request next) ∧
        s.world = (provider.respond r.world request).1 ∧
        Progress provider s name first start (provider.respond own request).1 := by
  cases turn with
  | rests before after world memo status waits =>
    exact .inl ⟨world, h.rests hs hcancelled before after memo status waits⟩
  | begins before waited after world memo status =>
    exact .inl ⟨world, h.begins hs haction before waited after memo status⟩
  | goesOn before after rest world memo status =>
    refine .inl ⟨world, h.goesOn hs before after ?_ memo status⟩
    rcases rest with rfl | ⟨ms, rfl⟩ | rfl <;> rfl
  | @asks request next result before after replied memo status =>
    refine .inr ⟨request, next, before, by rw [replied],
      h.goesOn hs before after ?_ memo status⟩
    have hsame := hreply request next before
    rw [replied] at hsame
    rw [Job.perform]
    generalize provider.respond own request = pair at hsame
    obtain ⟨world, reply⟩ := pair
    obtain rfl : reply = .answer result := hsame
    rfl
  | returns before after world remembers status waits =>
    obtain ⟨n, early, -, -, rest⟩ := h.of_call before
    exact .inl ⟨world, ends early (Iteration.call_of_ok rest.symm) after remembers status waits⟩
  | @crashes request next message before after replied memo status waits =>
    refine .inr ⟨request, next, before, by rw [replied], ?_⟩
    have hsame := hreply request next before
    rw [replied] at hsame
    obtain ⟨n, early, memo', -, rest⟩ := h.of_call before
    rw [Job.perform] at rest
    generalize provider.respond own request = pair at hsame rest
    obtain ⟨world, reply⟩ := pair
    obtain rfl : reply = .crash message := hsame
    refine ends early (Iteration.call_of_error rest.symm) after ?_ status waits
    rw [memo, ← memo?_eq_some hs, memo']

end Progress

end Run

end Rollout

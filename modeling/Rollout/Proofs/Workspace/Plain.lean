import Rollout.Proofs.Plan.FinalStatus
import Rollout.Proofs.Plan.Job
import Rollout.Proofs.Workspace.Footprint

/-!
# Builds and destructions are plain plans

The actions that build and destroy stacks say what they have found or submitted, and hand back the
status they were given while they wait for somebody else. So they say that a step was cancelled only
if they were told so, which no call is.

* `Build.not_isCancelled_of_endsWith`, `Destroy.not_isCancelled_of_endsWith`: what a call makes of a
  status that is not done.
* `Workspace.plain_buildPlan`, `Workspace.plain_destroyPlan`: the plans are plain.
-/

namespace Rollout

namespace Job

variable {μ : Type}

/-- A call ends with what has come of an attempt, or with a failure. It makes no cancellation if the
attempt makes none. -/
theorem not_isCancelled_of_call {attempt : ExceptT Error Job (μ × Status)}
    {settle : Except Error (μ × Status) → Job (μ × Outcome)} {memo : μ} {value : μ × Outcome}
    (h : Yields (·.2.isCancelled = false) attempt)
    (hok : ∀ memo status, settle (.ok (memo, status)) = done (memo, .settled status))
    (herror : ∀ e, settle (.error e) = done (memo, .error e.message))
    (hends : (attempt.run.bind settle).EndsWith value) : value.2.status.isCancelled = false := by
  obtain ⟨result, hresult, hvalue⟩ := exists_of_endsWith_bind hends
  match result with
  | .ok (memo, status) =>
    rw [hok] at hvalue
    cases hvalue
    exact h _ hresult
  | .error e =>
    rw [herror] at hvalue
    cases hvalue
    rfl

end Job

open Job

namespace Build

variable {w : Workspace} {s : Stack} {status : Status}

theorem yields_submit (hopen : status.isCancelled = false) (described : Option Deployment) :
    Yields (·.2.isCancelled = false) (submit w s status described) := by
  cases described with
  | none => exact yields_bind fun _ => yields_bind fun _ => yields_pure rfl
  | some existing =>
    rw [submit]
    split
    · exact yields_pure rfl
    · split
      · exact yields_pure rfl
      · split
        · exact yields_pure hopen
        · refine yields_bind fun _ => yields_bind fun outcome => ?_
          cases outcome with
          | noChange => exact yields_pure rfl
          | submitted => exact yields_pure rfl

theorem not_isCancelled_check (change : Change) (described : Option Deployment) :
    (check change described).isCancelled = false := by
  cases described with
  | none => rfl
  | some d =>
    rw [check]
    split
    · rfl
    · split
      · rfl
      · split <;> rfl

/-- A call makes no cancellation of a status that is not done. -/
theorem not_isCancelled_of_endsWith (hopen : status.isDone = false) {change : Option Change}
    {value : Option Change × Outcome}
    (hends : ((action w s).advance change status).EndsWith value) :
    value.2.status.isCancelled = false := by
  have hopen := Status.not_isCancelled_of_not_isDone hopen
  have hattempt : Yields (·.2.isCancelled = false) (attempt w s change status) := by
    rw [attempt]
    split
    · exact yields_pure rfl
    · refine yields_bind fun described => ?_
      cases change with
      | none => exact yields_submit hopen described
      | some submitted => exact yields_pure (not_isCancelled_check submitted described)
  exact not_isCancelled_of_call hattempt (fun _ _ => rfl) (fun _ => rfl) hends

end Build

namespace Destroy

variable {s : Stack} {status : Status}

theorem yields_submit (hopen : status.isCancelled = false) (described : Option Deployment) :
    Yields (·.2.isCancelled = false) (submit s status described) := by
  cases described with
  | none => exact yields_pure rfl
  | some d =>
    rw [submit]
    split
    · exact yields_pure rfl
    · split
      · exact yields_pure rfl
      · split
        · exact yields_pure hopen
        · exact yields_bind fun _ => yields_pure rfl

theorem not_isCancelled_check (described : Option Deployment) :
    (check described).isCancelled = false := by
  cases described with
  | none => rfl
  | some d =>
    rw [check]
    split
    · rfl
    · split <;> rfl

/-- A call makes no cancellation of a status that is not done. -/
theorem not_isCancelled_of_endsWith (hopen : status.isDone = false) {submitted : Bool}
    {value : Bool × Outcome} (hends : ((action s).advance submitted status).EndsWith value) :
    value.2.status.isCancelled = false := by
  have hopen := Status.not_isCancelled_of_not_isDone hopen
  have hattempt : Yields (·.2.isCancelled = false) (attempt s submitted status) := by
    rw [attempt]
    split
    · exact yields_pure rfl
    · refine yields_bind fun described => ?_
      cases submitted with
      | false => exact yields_submit hopen described
      | true => exact yields_pure (not_isCancelled_check described)
  exact not_isCancelled_of_call hattempt (fun _ _ => rfl) (fun _ => rfl) hends

end Destroy

namespace Workspace

variable {μ : Type} {w : Workspace} {id description : String} {targets : Option (List String)}
  {reverse : Bool} {action : Stack → Action μ} {memo : μ} {sink : Sink}

/-- A plan for the stacks of a workspace is plain if its actions make no cancellation of a status
that is not done and its sink breaks down over nothing. -/
theorem plain_plan {p : Plan μ}
    (planned : w.plan id description targets reverse action memo = .ok p)
    (haction : ∀ s memo status value, status.isDone = false →
      ((action s).advance memo status).EndsWith value → value.2.status.isCancelled = false)
    (poll : PollPolicy) (quiet : ∀ journal, sink.breaksAt journal = false) :
    Plan.Plain { p with poll, sink } := by
  refine Plan.plain_of_calls ?_ (fun name step hs => ?_)
    (fun name step hs memo status value hopen hends => ?_) quiet
  · obtain ⟨q, hq, hgraph⟩ := plan_eq_ok planned
    exact hgraph ▸ Plan.built_build hq
  · obtain ⟨s, -, -, rfl⟩ := exists_member_of_get? planned hs
    rfl
  · obtain ⟨s, -, -, rfl⟩ := exists_member_of_get? planned hs
    exact haction s memo status value hopen hends

/-- Plans that build stacks are plain, from whatever state the provider will be in. -/
theorem plain_buildPlan {p : Plan (Option Change)} (planned : w.buildPlan id targets = .ok p)
    (poll : PollPolicy) (quiet : ∀ journal, sink.breaksAt journal = false) :
    Plan.Plain { p with poll, sink } :=
  plain_plan planned (fun _ _ _ _ hopen => Build.not_isCancelled_of_endsWith hopen) poll quiet

/-- So are plans that destroy them. -/
theorem plain_destroyPlan {p : Plan Bool} (planned : w.destroyPlan id targets = .ok p)
    (poll : PollPolicy) (quiet : ∀ journal, sink.breaksAt journal = false) :
    Plan.Plain { p with poll, sink } :=
  plain_plan planned (fun _ _ _ _ hopen => Destroy.not_isCancelled_of_endsWith hopen) poll quiet

end Workspace

end Rollout

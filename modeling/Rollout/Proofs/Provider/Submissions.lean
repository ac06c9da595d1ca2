import Rollout.Provider.Prepared

/-!
# What has been submitted

A provider that notes its requests answers like the one behind it, and the notes tell what has been
submitted for a stack.

* `Recorded.submissions`: the submissions for a stack that were noted.
* `Provider.respond_recorded` and `Recorded.submissions_cons`: one more request.
-/

namespace Rollout

variable {σ : Type}

/-- What is submitted with a request. -/
def Request.submission? : Request → Option Submission
  | .create submission => some submission
  | .update submission => some submission
  | _ => none

/-- What has been submitted for a stack, the last submission first. -/
def Recorded.submissions (world : Recorded σ) (fqn : String) : List Submission :=
  (world.exchanges.filterMap (·.request.submission?)).filter (·.fqn = fqn)

theorem Request.fqn_of_submission? {r : Request} {submission : Submission}
    (h : r.submission? = some submission) : submission.fqn = r.fqn := by
  cases r with
  | create => cases h; rfl
  | update => cases h; rfl
  | describe | destroy | outputs => cases h

/-- The next request is answered as by the provider behind, and noted. -/
theorem Provider.respond_recorded {provider : Provider σ} {world : Recorded σ} {r : Request}
    {after : σ} {reply : Reply r.Answer} (h : provider.respond world.inner r = (after, reply)) :
    provider.recorded.respond world r = (⟨after, ⟨r, reply⟩ :: world.exchanges⟩, reply) :=
  congrArg (fun pair : σ × Reply r.Answer =>
    ((⟨pair.1, ⟨r, pair.2⟩ :: world.exchanges⟩ : Recorded σ), pair.2)) h

namespace Recorded

variable (world : Recorded σ) (after : σ) {exchange : Exchange}

theorem submissions_cons (fqn : String) :
    submissions ⟨after, exchange :: world.exchanges⟩ fqn =
      exchange.request.submission?.toList.filter (·.fqn = fqn) ++ world.submissions fqn := by
  rw [submissions, submissions, ← List.filter_append]
  refine congrArg _ ?_
  cases h : exchange.request.submission? with
  | none => exact List.filterMap_cons_none h
  | some submission => exact List.filterMap_cons_some h

/-- A request that submits nothing is no submission for any stack. -/
theorem submissions_cons_of_none (h : exchange.request.submission? = none) (fqn : String) :
    submissions ⟨after, exchange :: world.exchanges⟩ fqn = world.submissions fqn := by
  rw [submissions_cons, h]
  rfl

/-- Nor is it one for a stack that it is not about. -/
theorem submissions_cons_of_ne {fqn : String} (h : fqn ≠ exchange.request.fqn) :
    submissions ⟨after, exchange :: world.exchanges⟩ fqn = world.submissions fqn := by
  rw [submissions_cons]
  cases hsubmission : exchange.request.submission? with
  | none => rfl
  | some submission =>
    have hne : submission.fqn ≠ fqn := Request.fqn_of_submission? hsubmission ▸ h.symm
    simp [hne]

theorem submissions_cons_of_some {submission : Submission}
    (h : exchange.request.submission? = some submission) :
    submissions ⟨after, exchange :: world.exchanges⟩ submission.fqn =
      submission :: world.submissions submission.fqn := by
  rw [submissions_cons, h]
  simp

end Recorded

end Rollout

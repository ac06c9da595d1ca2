import Rollout.Plan.Job

/-!
# One job after another

* `instLawfulMonad`: jobs can be regrouped.
* `Job.perform_bind`: one job after another is done where the first has left the provider, unless
  that crashed.
* `Job.perform_bind_run_eq_ok_iff`, `Job.perform_bind_run_leaves`: the same for jobs that may fail.
* `Job.Yields`: what is true of all values with which a job that may fail can end.
  `Job.yields_bind`: one such job after another.
-/

namespace Rollout.Job

variable {α β : Type}

instance instLawfulMonad : LawfulMonad Job :=
  LawfulMonad.mk' Job bind_done (fun _ _ => rfl) bind_assoc

/-! ## Done in one go -/

section Performed

variable {σ : Type} (provider : Provider σ)

theorem perform_bind (job : Job α) (f : α → Job β) (world : σ) :
    (job.bind f).perform provider world =
      match job.perform provider world with
      | (world, .ok value) => (f value).perform provider world
      | (world, .error message) => (world, .error message) := by
  induction job generalizing world with
  | done value => rfl
  | ask request next ih =>
    rw [bind, perform, perform]
    split
    · exact ih _ _
    · rfl
  | pause ms next ih => exact ih world
  | callOff next ih => exact ih world

/-- The second job leaves what the first one has left as it is required to be. -/
theorem perform_bind_run_leaves {job : ExceptT Error Job α} {f : α → ExceptT Error Job β}
    {P : σ → Prop} {world : σ} (h : P (job.run.perform provider world).1)
    (hnext : ∀ value, P ((f value).run.perform provider (job.run.perform provider world).1).1) :
    P ((job >>= f).run.perform provider world).1 := by
  show P (Job.perform provider (job.run.bind _) world).1
  rw [perform_bind]
  rcases hjob : job.run.perform provider world with ⟨next, message | e | value⟩
  · rwa [hjob] at h
  · rwa [hjob] at h
  · have hvalue := hnext value
    rwa [hjob] at hvalue

/-- Both jobs come to a value if the second one does. -/
theorem perform_bind_run_eq_ok_iff {job : ExceptT Error Job α} {f : α → ExceptT Error Job β}
    {world : σ} {result : β} :
    ((job >>= f).run.perform provider world).2 = .ok (.ok result) ↔
      ∃ value, (job.run.perform provider world).2 = .ok (.ok value) ∧
        ((f value).run.perform provider (job.run.perform provider world).1).2 =
          .ok (.ok result) := by
  show (Job.perform provider (job.run.bind _) world).2 = _ ↔ _
  rw [perform_bind]
  rcases job.run.perform provider world with ⟨next, message | e | value⟩
  · simp
  · exact iff_of_false nofun (by simp)
  · exact ⟨fun h => ⟨value, rfl, h⟩, fun ⟨_, hvalue, h⟩ => by cases hvalue; exact h⟩

end Performed

/-! ## Whatever is answered -/

variable {P : α → Prop} {Q : β → Prop}

/-- One job after another ends as the second one does, which the end of the first asks for. -/
theorem exists_of_endsWith_bind {job : Job α} {f : α → Job β} {value : β}
    (h : (job.bind f).EndsWith value) : ∃ first, job.EndsWith first ∧ (f first).EndsWith value := by
  induction job with
  | done first => exact ⟨first, .done first, h⟩
  | ask request next ih =>
    cases h with
    | ask answer rest =>
      obtain ⟨first, hfirst, hvalue⟩ := ih answer rest
      exact ⟨first, .ask answer hfirst, hvalue⟩
  | pause ms job ih =>
    cases h with
    | pause rest =>
      obtain ⟨first, hfirst, hvalue⟩ := ih rest
      exact ⟨first, .pause hfirst, hvalue⟩
  | callOff job ih =>
    cases h with
    | callOff rest =>
      obtain ⟨first, hfirst, hvalue⟩ := ih rest
      exact ⟨first, .callOff hfirst, hvalue⟩

/-- Whatever it is answered, the job fails or ends with a value of some kind. -/
def Yields (P : α → Prop) (job : ExceptT Error Job α) : Prop :=
  ∀ value, job.run.EndsWith (.ok value) → P value

theorem yields_pure {value : α} (h : P value) : Yields P (pure value) := by
  intro other hends
  cases hends
  exact h

/-- The value is that of the second job. -/
theorem yields_bind {job : ExceptT Error Job α} {f : α → ExceptT Error Job β}
    (hf : ∀ a, Yields Q (f a)) : Yields Q (job >>= f) := by
  intro value hends
  obtain ⟨first, -, hvalue⟩ := exists_of_endsWith_bind hends
  cases first with
  | ok a => exact hf a value hvalue
  | error e => cases hvalue

end Rollout.Job

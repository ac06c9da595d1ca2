import Rollout.Proofs.Plan.Invariant
import Rollout.Proofs.Plan.Stride

/-!
# Visits and their workers

A worker belongs to a visit that has begun and has not ended, and only such a worker is inside of a
call.

* `Run.Sound.mem_dispatched`, `Run.Sound.ne_of_path`: where there is a worker, its visit has begun,
  and no visit to what depends on it has.
* `Run.EndedWith.idle`: an ended worker is inside of no call.
* `Run.job?_staff`, `Run.job?_settled`: new visits and ended ones change no call.
-/

namespace Rollout

variable {μ σ : Type}

namespace Run

variable {p : Plan μ} {r : Run μ σ} {name : String}

/-- A worker belongs to a visit that has begun. -/
theorem Sound.mem_dispatched (hr : r.Sound p) {worker : Worker μ}
    (hw : r.workers.get? name = some worker) : name ∈ r.walk.dispatched :=
  (Walk.mem_inFlight_iff.1 ((hr.staffed name).2 ⟨worker, hw⟩)).1

/-- A step with a worker is none that another one depends on whose visit has begun. -/
theorem Sound.ne_of_path (hr : r.Sound p) {worker : Worker μ}
    (hw : r.workers.get? name = some worker) {n m : String} (hn : n ∈ r.walk.dispatched)
    (hm : p.graph.dag.Path n m) : m ≠ name := by
  rintro rfl
  rw [← hr.walkDag] at hm
  have hdone := hr.walk.completed_of_path hn hm
  rw [hr.worker_of_settled (Walk.mem_settled_iff.2 (.inl hdone))] at hw
  cases hw

/-- Where nobody works on a step, nobody is inside of a call of it or waits for one. -/
theorem idle_of_no_worker (h : r.workers.get? name = none) :
    r.job? name = none ∧ ¬ r.Waits name := by
  rw [job?, Waits, h]
  exact ⟨rfl, by simp⟩

/-- A worker that has ended belongs to a visit that has begun, and it is inside of no call. -/
theorem EndedWith.idle {ok : Bool} (h : r.EndedWith name ok) (hr : r.Sound p) :
    name ∈ r.walk.dispatched ∧ r.job? name = none := by
  rcases h with ⟨attempt, hw⟩ | h
  · exact ⟨hr.mem_dispatched hw, job?_of_worker hw⟩
  · refine ⟨?_, (idle_of_no_worker (hr.worker_of_settled (Walk.mem_settled_of_visited h))).1⟩
    cases ok with
    | true => exact hr.walk.ended_dispatched name (.inl h)
    | false => exact hr.walk.ended_dispatched name (.inr h)

/-- Fresh workers are inside of no call and do not wait. -/
theorem job?_staff (r : Run μ σ) (m : String) :
    r.staff.job? m = r.job? m ∧ (r.staff.Waits m → r.Waits m) := by
  constructor
  · rw [job?, job?, get?_staff]
    split
    · cases r.workers.get? m <;> rfl
    · rfl
  · rintro ⟨worker, hw, hwaits⟩
    rcases get?_staff_eq_some hw with rfl | hold
    · cases hwaits
    · exact ⟨worker, hold, hwaits⟩

/-- Neither is a worker that has ended. -/
theorem job?_settled {attempt : Nat} {ok : Bool}
    (hw : r.workers.get? name = some ⟨attempt, .finished ok⟩) (walk : Walk String) (m : String) :
    (staff { r with workers := r.workers.erase name, walk }).job? m = r.job? m ∧
      ((staff { r with workers := r.workers.erase name, walk }).Waits m → r.Waits m) := by
  obtain ⟨hjob, hwaits⟩ := job?_staff { r with workers := r.workers.erase name, walk } m
  constructor
  · rw [hjob, job?, job?, Table.get?_erase]
    split
    · next hm =>
      rw [hm, hw]
      rfl
    · rfl
  · intro h
    obtain ⟨worker, hw', hwaits⟩ := hwaits h
    rw [Table.get?_erase] at hw'
    split at hw'
    · cases hw'
    · exact ⟨worker, hw', hwaits⟩

end Run

end Rollout

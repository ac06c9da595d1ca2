import Rollout.Proofs.Plan.Invariant

/-!
# Runs whose sink is quiet

A sink that breaks down over nothing leaves every run whole, so that each comes to a report when its
walk is over.

* `Run.Quiet`: the sink is quiet, and so was all of the run.
* `Plan.Reaches.quiet`: it stays so in every run of the plan.
* `Run.Quiet.exists_report`: and then the run has a report.
-/

namespace Rollout

variable {μ σ : Type}

namespace Run

/-- The sink breaks down over nothing, and did not break down so far. -/
structure Quiet (r : Run μ σ) : Prop where
  broken : r.broken = false
  sink : ∀ journal, r.plan.sink.breaksAt journal = false

namespace Quiet

variable {r s : Run μ σ}

theorem announce (h : r.Quiet) (event : Event) : (r.announce event).Quiet := by
  unfold Run.announce
  rw [h.broken, if_neg Bool.false_ne_true]
  exact ⟨h.sink _, h.sink⟩

theorem setStatus (h : r.Quiet) (name : String) (status : Status) :
    (r.setStatus name status).2 = false ∧
      (r.setStatus name status).1.plan.sink = r.plan.sink := by
  unfold Run.setStatus
  split
  · exact ⟨rfl, rfl⟩
  · split
    · exact ⟨rfl, rfl⟩
    · exact ⟨h.sink _, rfl⟩

theorem assign (h : r.Quiet) (name : String) (status : Status) : (r.assign name status).Quiet := by
  obtain ⟨hquiet, hsink⟩ := h.setStatus name status
  unfold Run.assign
  rw [h.broken, if_neg Bool.false_ne_true]
  exact ⟨hquiet, hsink ▸ h.sink⟩

theorem foldl {f : Run μ σ → String → Run μ σ}
    (hf : ∀ s : Run μ σ, s.Quiet → ∀ name, (f s name).Quiet) (h : r.Quiet) (names : List String) :
    (names.foldl f r).Quiet := by
  induction names generalizing r with
  | nil => exact h
  | cons name names ih => exact ih (hf r h name)

theorem close (h : r.Quiet) : r.close.Quiet := by
  unfold Run.close
  refine foldl (fun s hs name => hs.assign name _) (foldl (fun s hs name => ?_) h _) _
  unfold closeFailed
  split
  · exact hs.assign name _
  · exact hs

theorem after_move {p : Plan μ} (h : r.Quiet) (hr : r.Sound p) {provider : Provider σ}
    {move : Move} (next : r.move? provider move = some s) : s.Quiet := by
  cases moved_of_move? (fun _ _ hw => hr.exists_step hw) next with
  | passed plan _ _ _ _ broken => exact ⟨broken.trans h.broken, plan ▸ h.sink⟩
  | turned _ _ _ _ turn => exact ⟨turn.frame.broken.trans h.broken, turn.frame.sink ▸ h.sink⟩
  | settled _ after => exact after ▸ ⟨h.broken, h.sink⟩

/-- A run whose sink is quiet has a report. -/
theorem exists_report (h : r.Quiet) : ∃ run report, r.finish = (run, some report) := by
  have hquiet := h.close.announce
    (.planFinished r.close.report.outcome.name (UInt64.ofNat (r.close.clock / 1000000)))
  unfold Run.finish
  simp only [hquiet.broken, Bool.false_eq_true, if_false]
  exact ⟨_, _, rfl⟩

end Quiet

end Run

theorem Plan.Reaches.quiet {p : Plan μ} (hp : p.graph.Sound)
    (quiet : ∀ journal, p.sink.breaksAt journal = false) {provider : Provider σ} {walker : Walker}
    {world : σ} {run : Run μ σ} (h : p.Reaches provider walker world run) : run.Quiet := by
  obtain ⟨cancelled, start, hbegin, hsteps⟩ := h
  induction hsteps with
  | refl =>
    unfold Plan.begin at hbegin
    split at hbegin
    · cases hbegin
    · have hprepared : (Plan.prepare { p with executed := true } walker world cancelled).Quiet :=
        ⟨rfl, quiet⟩
      have hannounced := hprepared.announce (.planStarted p.description p.keys)
      obtain rfl := Except.ok.inj hbegin
      rw [hannounced.broken, if_neg Bool.false_ne_true]
      exact ⟨hannounced.broken, hannounced.sink⟩
  | tail move before next ih =>
    exact ih.after_move ((Plan.sound_begin hp hbegin).1.steps before) next

end Rollout

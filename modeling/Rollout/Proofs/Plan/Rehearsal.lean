import Rollout.Proofs.Plan.Slots

/-!
# Rehearsals are runs

A rehearsal decides whose turn it is and when the clock moves on, and nothing else. Each of its
turns is some moves of the run, so what it comes to is something that the plan can come to, and what
is true of all runs is true of the one that is rehearsed.

* `Rehearsal.turn_cases`: what a turn does to the run.
* `Rehearsal.play_induction`: what every turn keeps holds at the end, and there the run is over.
* `Plan.ends_of_rehearse`: a rehearsal with a report is one of the ways in which the plan can end.
* `Plan.peak_rehearse_le`: with a bounded walker it sees no more calls at once than that allows.
-/

namespace Rollout

variable {μ σ : Type} {p : Plan μ} {provider : Provider σ} {walker : Walker} {world : σ}

theorem Run.Steps.trans {r s t : Run μ σ} (h : Steps provider r s) (h' : Steps provider s t) :
    Steps provider r t := by
  induction h' with
  | refl => exact h
  | tail move _ next ih => exact .tail move ih next

namespace Rehearsal

variable {r s : Rehearsal μ σ}

/-! ## Turns -/

theorem run_place (r : Rehearsal μ σ) (name : String) : (r.place name).run = r.run := by
  rw [place]
  repeat' split
  all_goals rfl

theorem run_follow (r : Rehearsal μ σ) (next : Run μ σ) (name : String) (rest : List String) :
    (r.follow next name rest).run = next :=
  run_place _ name

theorem peak_follow (r : Rehearsal μ σ) (next : Run μ σ) (name : String) (rest : List String) :
    (r.follow next name rest).peak = max r.peak (callsInProgress next) := rfl

/-- When the clock jumps, time passes, and the run may be called off. -/
theorem steps_jump (r : Rehearsal μ σ) (moment : Nat) :
    Run.Steps provider r.run (r.jump moment).run := by
  have hwait : Run.Steps provider r.run { r.run with clock := max r.run.clock moment } := by
    refine .tail (.wait (max r.run.clock moment - r.run.clock)) (.refl _) ?_
    rw [Run.move?, Nat.add_sub_cancel' (Nat.le_max_left _ _)]
  rw [jump]
  split
  · exact .tail .cancel hwait rfl
  · exact hwait

/-- A turn is a move, or the clock jumps, or there is nothing to it but the order of the turns. The
peak is kept up with the calls that go on. -/
theorem turn_cases (h : r.turn provider = some s) :
    (∃ move, r.run.move? provider move = some s.run ∧ s.peak = max r.peak (callsInProgress s.run)) ∨
      (Run.Steps provider r.run s.run ∧ s.peak = r.peak) := by
  rw [turn] at h
  split at h
  · next name rest _ =>
    split at h
    · next next hnext =>
      obtain rfl := Option.some.inj h
      exact .inl ⟨_, by rw [run_follow, hnext], by rw [run_follow, peak_follow]⟩
    · obtain rfl := Option.some.inj h
      exact .inr ⟨.refl _, rfl⟩
  · split at h
    · obtain ⟨moment, -, rfl⟩ := Option.map_eq_some_iff.1 h
      refine .inr ⟨r.steps_jump moment, ?_⟩
      rw [jump]
      split <;> rfl
    · obtain rfl := Option.some.inj h
      exact .inr ⟨.refl _, rfl⟩

theorem steps_turn (h : r.turn provider = some s) : Run.Steps provider r.run s.run := by
  rcases turn_cases h with ⟨move, hmove, -⟩ | ⟨hsteps, -⟩
  · exact .tail move (.refl _) hmove
  · exact hsteps

/-- What is kept by every turn holds at the end of a rehearsal, and then the run is over. -/
theorem play_induction {P : Rehearsal μ σ → Prop}
    (hturn : ∀ {r s : Rehearsal μ σ}, P r → r.turn provider = some s → P s) {turns : Nat}
    (h : play provider turns r = some s) (hr : P r) : P s ∧ s.run.IsDone := by
  induction turns generalizing r with
  | zero => cases h
  | succ turns ih =>
    rw [play] at h
    split at h
    · next hdone =>
      obtain rfl := Option.some.inj h
      exact ⟨hr, Bool.and_eq_true_iff.1 hdone⟩
    · split at h
      · cases h
      · split at h
        · next next hnext => exact ih h (hturn hr hnext)
        · cases h

/-- A rehearsal goes on by moves of its run, to the end of the run. -/
theorem steps_play {turns : Nat} (h : play provider turns r = some s) :
    Run.Steps provider r.run s.run ∧ s.run.IsDone :=
  play_induction (P := fun t => Run.Steps provider r.run t.run)
    (fun ht hturn => ht.trans (steps_turn hturn)) h (.refl _)

/-! ## The most calls at once -/

/-- With a bounded walker no more calls go on at once than there are slots. -/
theorem callsInProgress_le (hp : p.graph.Sound) {limit : Nat} {positive : 0 < limit}
    {run : Run μ σ} (h : p.Reaches provider (.bounded limit positive) world run) :
    callsInProgress run ≤ limit := by
  obtain ⟨held, hledger⟩ := h.exists_ledger
  have haccounted := hledger.accounted hp
  have hlength := haccounted.spare_add_length
  rw [List.length_append] at hlength
  rw [haccounted.callsInProgress_eq]
  omega

/-- So the most calls that a rehearsal has seen at once are no more either. -/
theorem peak_play_le (hp : p.graph.Sound) {limit : Nat} {positive : 0 < limit} {turns : Nat}
    (hreaches : p.Reaches provider (.bounded limit positive) world r.run) (hpeak : r.peak ≤ limit)
    (h : play provider turns r = some s) : s.peak ≤ limit := by
  refine (play_induction (P := fun t =>
    p.Reaches provider (.bounded limit positive) world t.run ∧ t.peak ≤ limit)
    (fun {t u} ht hturn => ?_) h ⟨hreaches, hpeak⟩).1.2
  have hnext : p.Reaches provider (.bounded limit positive) world u.run := by
    obtain ⟨cancelled, start, hbegin, hsteps⟩ := ht.1
    exact ⟨cancelled, start, hbegin, hsteps.trans (steps_turn hturn)⟩
  refine ⟨hnext, ?_⟩
  rcases turn_cases hturn with ⟨_, -, hmax⟩ | ⟨-, hsame⟩
  · rw [hmax]
    exact Nat.max_le.2 ⟨ht.2, callsInProgress_le hp hnext⟩
  · rw [hsame]
    exact ht.2

end Rehearsal

namespace Plan

variable {cancelled : Bool} {cancelAt : Option Nat} {performance : Performance μ σ}

/-- A plan that has been rehearsed was begun and played to its end. -/
theorem exists_play_of_rehearse
    (h : p.rehearse provider walker world cancelled cancelAt = .ok (some performance)) :
    ∃ start r, p.begin walker world cancelled = .ok start ∧
      Rehearsal.play provider Rehearsal.mostTurns (.ofRun start cancelAt) = some r ∧
      r.run.finish = (performance.run, performance.report) ∧ performance.peak = r.peak := by
  obtain ⟨start, hstart, h⟩ := Except.bind_eq_ok_iff.1 h
  obtain ⟨r, hr, rfl⟩ := Option.map_eq_some_iff.1 (Except.ok.inj h)
  exact ⟨start, r, hstart, hr, rfl, rfl⟩

/-- A rehearsal with a report is one of the ways in which the plan can end. -/
theorem ends_of_rehearse {report : PlanReport}
    (h : p.rehearse provider walker world cancelled cancelAt = .ok (some performance))
    (hreport : performance.report = some report) :
    p.Ends provider walker world performance.run report := by
  obtain ⟨start, r, hstart, hplay, hfinish, -⟩ := exists_play_of_rehearse h
  obtain ⟨hsteps, hdone⟩ := Rehearsal.steps_play hplay
  exact ⟨r.run, ⟨cancelled, start, hstart, hsteps⟩, hdone, hreport ▸ hfinish⟩

/-- With a bounded walker it never saw more calls at once than the walker allows. -/
theorem peak_rehearse_le (hp : p.graph.Sound) {limit : Nat} {positive : 0 < limit}
    (h : p.rehearse provider (.bounded limit positive) world cancelled cancelAt =
      .ok (some performance)) : performance.peak ≤ limit := by
  obtain ⟨start, r, hstart, hplay, -, hpeak⟩ := exists_play_of_rehearse h
  rw [hpeak]
  exact Rehearsal.peak_play_le hp ⟨cancelled, start, hstart, .refl _⟩ (Nat.zero_le _) hplay

end Plan

end Rollout

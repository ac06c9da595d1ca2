import Rollout.Proofs.Dag.Built
import Rollout.Proofs.Walk.Invariant

/-!
# The result of a walk

Where the nodes end up depends on the graph and on how each visit ends, and on nothing else: not on
the walker, and not on the order in which visits end.

* `WalkReport.IsResult`: the report says of every node what its visit and the visits of all it
  depends on tell.
* `Walk.Next`: one more visit ends. There is no endless chain of these.
* `Dag.Built.walk_isResult`: every walk of every graph ends with such a report.
-/

namespace Rollout

variable {α : Type}

/-- The report puts every node of `d` where visits that end as `visit` says put it. -/
structure WalkReport.IsResult (r : WalkReport α) (d : Dag α) (visit : α → Bool) [DecidableEq α] :
    Prop where
  /-- Every node is in one of the lists. -/
  perm : r.settled.Perm d.nodes
  /-- No node is there twice. -/
  nodup : r.settled.Nodup
  /-- Completed are the nodes that went well, as all they depend on did. -/
  mem_completed_iff : ∀ n, n ∈ r.completed ↔
    n ∈ d.nodes ∧ visit n = true ∧ ∀ m, d.Path n m → visit m = true
  /-- Failed are the nodes that did not go well, though all they depend on did. -/
  mem_failed_iff : ∀ n, n ∈ r.failed ↔
    n ∈ d.nodes ∧ visit n = false ∧ ∀ m, d.Path n m → visit m = true
  /-- Blocked are the nodes that depend on one that does not go well. -/
  mem_blocked_iff : ∀ n, n ∈ r.blocked ↔ n ∈ d.nodes ∧ ∃ m, d.Path n m ∧ visit m = false
  /-- Nodes were completed after all they depend on. -/
  ordered : ∀ n ∈ r.completed, ∀ m, d.Path n m → r.completed.idxOf m < r.completed.idxOf n

namespace Walk

variable [DecidableEq α]

/-- The report tells the ends of the visits as they were. -/
def Faithful (visit : α → Bool) (w : Walk α) : Prop :=
  ∀ how, ∀ n ∈ w.report.visited how, visit n = how

theorem faithful_start (d : Dag α) (cap : Option Nat) (visit : α → Bool) :
    Faithful visit (start d cap) := by
  intro how n hn
  rw [start, report_dispatch] at hn
  cases how <;> exact absurd hn List.not_mem_nil

theorem Faithful.settle {visit : α → Bool} {w : Walk α} (hw : w.Faithful visit) (n : α) :
    (w.settle n (visit n)).Faithful visit := by
  intro how m hm
  rcases (mem_visited_settle_iff w n m _ how).1 hm with hm | ⟨rfl, rfl⟩
  · exact hw how m hm
  · rfl

/-! ## Reached walks -/

namespace Reached

variable {d : Dag α} {cap : Option Nat} {visit : α → Bool} {w : Walk α}

theorem dag_eq (h : Reached d cap visit w) : w.dag = d := by
  induction h with
  | start => rw [Walk.start, dag_dispatch]
  | settle _ _ ih => rw [dag_settle, ih]

theorem cap_eq (h : Reached d cap visit w) : w.cap = cap := by
  induction h with
  | start => rw [Walk.start, cap_dispatch]
  | settle _ _ ih => rw [cap_settle, ih]

theorem sound (hd : d.WellFormed) (h : Reached d cap visit w) : w.Sound := by
  induction h with
  | start => exact sound_start hd cap
  | settle _ under ih => exact ih.settle under _

theorem saturated (h : Reached d cap visit w) : w.Saturated := by
  cases h with
  | start => exact saturated_dispatch _
  | settle _ _ => exact saturated_dispatch _

theorem faithful (h : Reached d cap visit w) : w.Faithful visit := by
  induction h with
  | start => exact faithful_start d cap visit
  | settle _ _ ih => exact ih.settle _

/-- All that a visited node depends on went well. -/
theorem visit_of_path (hd : d.WellFormed) (h : Reached d cap visit w) {n m : α}
    (hn : n ∈ w.report.completed ∨ n ∈ w.report.failed) (hm : d.Path n m) : visit m = true := by
  have hw := h.sound hd
  rw [← h.dag_eq] at hm
  exact h.faithful true m (hw.completed_of_path (hw.ended_dispatched n hn) hm)

/-- A blocked node depends on one that did not go well. -/
theorem exists_of_blocked (hd : d.WellFormed) (h : Reached d cap visit w) {n : α}
    (hn : n ∈ w.report.blocked) : ∃ m, d.Path n m ∧ visit m = false := by
  obtain ⟨m, hm, hf⟩ := ((h.sound hd).blocked_iff n).1 hn
  rw [h.dag_eq] at hm
  exact ⟨m, hm, h.faithful false m hf⟩

/-- A node all of whose dependencies go well is not blocked. Where it ends up is what its own visit
tells. -/
theorem mem_visited_of_settled (hd : d.WellFormed) (h : Reached d cap visit w) {n : α}
    (hn : n ∈ w.report.settled) (hpath : ∀ m, d.Path n m → visit m = true) :
    n ∈ w.report.visited (visit n) := by
  have hvisited : ∀ how, n ∈ w.report.visited how → n ∈ w.report.visited (visit n) :=
    fun how hn => (h.faithful how n hn).symm ▸ hn
  rcases mem_settled_iff.1 hn with hn | hn | hn
  · exact hvisited true hn
  · exact hvisited false hn
  · obtain ⟨m, hm, hf⟩ := h.exists_of_blocked hd hn
    rw [hpath m hm] at hf
    cases hf

end Reached

/-- A walk that is over has the one report that there is. -/
theorem Reached.isResult {d : Dag α} {cap : Option Nat} {visit : α → Bool} {w : Walk α}
    (hd : d.WellFormed) (hcap : cap ≠ some 0) (h : Reached d cap visit w)
    (hover : w.isOver = true) : w.report.IsResult d visit := by
  have hw := h.sound hd
  have hperm := hw.settled_perm h.saturated hover (by rwa [h.cap_eq])
  rw [h.dag_eq] at hperm
  have hnode : ∀ n, n ∈ w.report.settled ↔ n ∈ d.nodes := fun n => hperm.mem_iff
  refine
    { perm := hperm
      nodup := hw.nodup_settled
      mem_completed_iff := fun n => ⟨fun hn => ?_, ?_⟩
      mem_failed_iff := fun n => ⟨fun hn => ?_, ?_⟩
      mem_blocked_iff := fun n => ⟨fun hn => ?_, ?_⟩
      ordered := fun n hn m hm => hw.idxOf_lt_of_path hn (h.dag_eq ▸ hm) }
  · exact ⟨(hnode n).1 (mem_settled_iff.2 (.inl hn)), h.faithful true n hn,
      fun m => h.visit_of_path hd (.inl hn)⟩
  · rintro ⟨hn, hv, hpath⟩
    have hvisited := h.mem_visited_of_settled hd ((hnode n).2 hn) hpath
    rw [hv] at hvisited
    exact hvisited
  · exact ⟨(hnode n).1 (mem_settled_iff.2 (.inr (.inl hn))), h.faithful false n hn,
      fun m => h.visit_of_path hd (.inr hn)⟩
  · rintro ⟨hn, hv, hpath⟩
    have hvisited := h.mem_visited_of_settled hd ((hnode n).2 hn) hpath
    rw [hv] at hvisited
    exact hvisited
  · exact ⟨(hnode n).1 (mem_settled_iff.2 (.inr (.inr hn))), h.exists_of_blocked hd hn⟩
  · rintro ⟨hn, m, hm, hf⟩
    rcases mem_settled_iff.1 ((hnode n).2 hn) with hn | hn | hn
    · rw [h.visit_of_path hd (.inl hn) hm] at hf
      cases hf
    · rw [h.visit_of_path hd (.inr hn) hm] at hf
      cases hf
    · exact hn

/-! ## Walks end -/

/-- `v` is `u` after the end of one more visit. -/
def Next (d : Dag α) (cap : Option Nat) (visit : α → Bool) (v u : Walk α) : Prop :=
  Reached d cap visit u ∧ ∃ n ∈ u.inFlight, v = u.settle n (visit n)

/-- How many visits have ended. -/
def ended (w : Walk α) : Nat := w.report.completed.length + w.report.failed.length

theorem ended_settle (w : Walk α) (n : α) (ok : Bool) : (w.settle n ok).ended = w.ended + 1 := by
  rw [ended, ended, report_settle, conclude]
  cases ok with
  | true =>
    show (w.report.completed ++ [n]).length + w.report.failed.length = _
    rw [List.length_append, List.length_singleton]
    omega
  | false =>
    show w.report.completed.length + (w.report.failed ++ [n]).length = _
    rw [List.length_append, List.length_singleton]
    omega

theorem Sound.ended_lt {w : Walk α} (hw : w.Sound) {n : α} (hn : n ∈ w.inFlight) :
    w.ended < w.dag.size := by
  obtain ⟨hd, hs⟩ := mem_inFlight_iff.1 hn
  have hnodup : (n :: w.report.settled).Nodup := List.nodup_cons.2 ⟨hs, hw.nodup_settled⟩
  have hsub : n :: w.report.settled ⊆ w.dag.nodes :=
    List.cons_subset.2 ⟨hw.dispatched_subset hd, hw.settled_subset⟩
  have hle := (hnodup.subperm hsub).length_le
  rw [List.length_cons, WalkReport.settled, List.length_append, List.length_append] at hle
  have hsize : w.dag.nodes.length = w.dag.size := by rw [Dag.nodes, List.length_map, Dag.size]
  rw [ended]
  omega

theorem wellFounded_next {d : Dag α} (hd : d.WellFormed) (cap : Option Nat) (visit : α → Bool) :
    WellFounded (Next d cap visit) := by
  refine Subrelation.wf (fun {v u} h => ?_) (measure fun w : Walk α => d.size - w.ended).wf
  obtain ⟨hu, n, hn, rfl⟩ := h
  have hlt := (hu.sound hd).ended_lt hn
  rw [hu.dag_eq] at hlt
  change d.size - (u.settle n (visit n)).ended < d.size - u.ended
  rw [ended_settle]
  omega

/-- As many visits as there are nodes bring a walk to its end. -/
theorem Reached.visitNext {d : Dag α} (hd : d.WellFormed) {cap : Option Nat} {visit : α → Bool}
    {w : Walk α} (h : Reached d cap visit w) {count : Nat} (hcount : d.size ≤ w.ended + count) :
    Reached d cap visit (w.visitNext visit count) ∧
      (w.visitNext visit count).isOver = true := by
  induction count generalizing w with
  | zero =>
    refine ⟨h, List.isEmpty_iff.2 (List.eq_nil_iff_forall_not_mem.2 fun n hn => ?_)⟩
    have hlt := (h.sound hd).ended_lt hn
    rw [h.dag_eq] at hlt
    omega
  | succ count ih =>
    rw [Walk.visitNext]
    split
    · next hnone => exact ⟨h, List.isEmpty_iff.2 hnone⟩
    · next n rest hsome =>
      have hn : n ∈ w.inFlight := by
        rw [hsome]
        exact List.mem_cons_self
      refine ih (h.settle hn) ?_
      rw [ended_settle]
      omega

end Walk

theorem Walker.cap_ne_zero (walker : Walker) : walker.cap ≠ some 0 := by
  cases walker with
  | sequential => exact fun h => absurd (Option.some.inj h) Nat.one_ne_zero
  | unbounded => exact nofun
  | bounded _ _ => exact nofun

/-- Every walk of a graph ends, visits no node twice and no blocked node at all, and when it is over
its report is the one that the ends of the visits determine. One such walk is the one that ends its
visits in the order of their starts. -/
theorem Dag.Built.walk_isResult [DecidableEq α] {d : Dag α} (hd : d.Built) (walker : Walker)
    (ends : α → VisitEnd) :
    WellFounded (Walk.Next d walker.cap fun n => (ends n).isOk) ∧
    (∀ w, Walk.Reached d walker.cap (fun n => (ends n).isOk) w →
      w.dispatched.Nodup ∧ (∀ n ∈ w.report.blocked, n ∉ w.dispatched) ∧
      (w.isOver = true → w.report.IsResult d fun n => (ends n).isOk)) ∧
    ∃ w, Walk.Reached d walker.cap (fun n => (ends n).isOk) w ∧ w.isOver = true ∧
      w.report = d.walk walker fun n => (ends n).isOk := by
  have hwf := hd.wellFormed
  refine ⟨Walk.wellFounded_next hwf _ _, fun w hw => ?_, ?_⟩
  · have hsound := hw.sound hwf
    exact ⟨hsound.nodup_dispatched, fun n hn => hsound.not_mem_dispatched_of_blocked hn,
      hw.isResult hwf walker.cap_ne_zero⟩
  · have hstart : Walk.Reached d walker.cap (fun n => (ends n).isOk) (Walk.start d walker.cap) :=
      .start
    obtain ⟨hreached, hover⟩ := hstart.visitNext hwf (Nat.le_add_left d.size _)
    exact ⟨_, hreached, hover, rfl⟩

/-- Of two nodes in a row the upper one is blocked when the visit of the lower one crashes. -/
theorem Dag.walk_isResult_crashed :
    (Dag.walk ⟨[(1, [2]), (2, [])]⟩ .sequential
      fun n => (if n = 2 then VisitEnd.crashed else .returned true).isOk).IsResult
      (⟨[(1, [2]), (2, [])]⟩ : Dag Nat)
      fun n => (if n = 2 then VisitEnd.crashed else .returned true).isOk := by
  have hbuilt : (⟨[(1, [2]), (2, [])]⟩ : Dag Nat).Built := by
    have h : (Dag.ofDependencies [(1, [2]), (2, [])]).toOption.map (·.entries) =
        some [(1, [2]), (2, [])] := by
      decide +kernel
    cases hd : Dag.ofDependencies [(1, [2]), (2, [])] with
    | error refusal =>
      rw [hd] at h
      cases h
    | ok d =>
      obtain ⟨entries⟩ := d
      rw [hd] at h
      cases h
      exact .ofDependencies hd
  obtain ⟨-, hresult, w, hw, hover, hreport⟩ :=
    hbuilt.walk_isResult .sequential fun n => if n = 2 then .crashed else .returned true
  rw [← hreport]
  exact (hresult w hw).2.2 hover

end Rollout

import Rollout.Dag.Walk
import Rollout.Proofs.Dag.Transitive

/-!
# The invariant of a walk

Whatever the order in which visits end and however they end, a walk under way has started a visit
only when all that its node depends on was completed, and has blocked exactly what is behind a
failure.

* `Walk.Sound`: the invariant.
* `Walk.Sound.dispatch`: starting visits keeps it. `Walk.Sound.complete` and `Walk.Sound.fail`: so
  does the end of a visit.
* `Walk.Saturated`: no visit is left that could be started. So it is after every `dispatch`.
* `Walk.Sound.settled_perm`: a walk that is over has settled every node once.
-/

namespace Rollout

/-- The nodes whose visit ended well, or those whose visit did not. -/
def WalkReport.visited {α : Type} (r : WalkReport α) : Bool → List α
  | true => r.completed
  | false => r.failed

namespace Walk

variable {α : Type}

theorem mem_settled_iff {r : WalkReport α} {n : α} :
    n ∈ r.settled ↔ n ∈ r.completed ∨ n ∈ r.failed ∨ n ∈ r.blocked := by
  simp only [WalkReport.settled, List.mem_append, or_assoc]

theorem mem_settled_of_visited {r : WalkReport α} {n : α} {how : Bool} (h : n ∈ r.visited how) :
    n ∈ r.settled := by
  cases how with
  | true => exact mem_settled_iff.2 (.inl h)
  | false => exact mem_settled_iff.2 (.inr (.inl h))

variable [DecidableEq α]

/-- What is true of every walk under way. -/
structure Sound (w : Walk α) : Prop where
  /-- The graph is one that operations leave. -/
  wellFormed : w.dag.WellFormed
  /-- A visit is started once. -/
  nodup_dispatched : w.dispatched.Nodup
  /-- Visits are of nodes. -/
  dispatched_subset : w.dispatched ⊆ w.dag.nodes
  /-- All that a visited node depends on has been completed. -/
  ready : ∀ n ∈ w.dispatched, ∀ m, w.dag.Edge n m → m ∈ w.report.completed
  /-- A node ends up in one place. -/
  nodup_settled : w.report.settled.Nodup
  /-- A visit that has ended has been started. -/
  ended_dispatched : ∀ n, n ∈ w.report.completed ∨ n ∈ w.report.failed → n ∈ w.dispatched
  /-- Blocked are the nodes that depend on a failed one, directly or not. -/
  blocked_iff : ∀ n, n ∈ w.report.blocked ↔ ∃ m, w.dag.Path n m ∧ m ∈ w.report.failed
  /-- What a completed node depends on was completed before it. -/
  ordered : ∀ n ∈ w.report.completed, ∀ m, w.dag.Edge n m →
    w.report.completed.idxOf m < w.report.completed.idxOf n

theorem mem_inFlight_iff {w : Walk α} {n : α} :
    n ∈ w.inFlight ↔ n ∈ w.dispatched ∧ n ∉ w.report.settled := by
  simp only [inFlight, List.mem_filter, decide_eq_true_eq]

theorem isReady_iff {w : Walk α} {n : α} :
    w.isReady n = true ↔ n ∉ w.dispatched ∧ n ∉ w.report.settled ∧
      ∀ m, w.dag.Edge n m → m ∈ w.report.completed := by
  simp only [isReady, Bool.and_eq_true, decide_eq_true_eq, List.all_eq_true, and_assoc]
  rfl

namespace Sound

variable {w : Walk α} (hw : w.Sound)
include hw

theorem not_mem_of_completed {n : α} (h : n ∈ w.report.completed) :
    n ∉ w.report.failed ++ w.report.blocked := by
  have hn := hw.nodup_settled
  rw [WalkReport.settled, List.append_assoc] at hn
  exact List.disjoint_of_nodup_append hn h

theorem not_mem_failed_of_completed {n : α} (h : n ∈ w.report.completed) : n ∉ w.report.failed :=
  fun hf => hw.not_mem_of_completed h (List.mem_append_left _ hf)

/-- All that a visited node depends on, directly or not, has been completed. -/
theorem completed_of_path {n m : α} (hn : n ∈ w.dispatched) (h : w.dag.Path n m) :
    m ∈ w.report.completed :=
  h.induction_closed (P := fun m => m ∈ w.report.completed)
    (fun x y hx hxy => hw.ready x (hw.ended_dispatched x (.inl hx)) y hxy)
    fun x hx => hw.ready n hn x hx

/-- A blocked node is never visited. -/
theorem not_mem_dispatched_of_blocked {n : α} (h : n ∈ w.report.blocked) : n ∉ w.dispatched := by
  intro hn
  obtain ⟨m, hm, hf⟩ := (hw.blocked_iff n).1 h
  exact hw.not_mem_failed_of_completed (hw.completed_of_path hn hm) hf

theorem settled_subset : w.report.settled ⊆ w.dag.nodes := by
  intro n hn
  rcases mem_settled_iff.1 hn with h | h | h
  · exact hw.dispatched_subset (hw.ended_dispatched n (.inl h))
  · exact hw.dispatched_subset (hw.ended_dispatched n (.inr h))
  · obtain ⟨m, hm, -⟩ := (hw.blocked_iff n).1 h
    exact hm.mem_nodes

theorem idxOf_lt_of_path {n m : α} (hn : n ∈ w.report.completed) (h : w.dag.Path n m) :
    w.report.completed.idxOf m < w.report.completed.idxOf n := by
  induction h with
  | edge first => exact hw.ordered _ hn _ first
  | cons first _ ih =>
    have hb := hw.ready _ (hw.ended_dispatched _ (.inl hn)) _ first
    exact Nat.lt_trans (ih hb) (hw.ordered _ hn _ first)

/-! ## Starting visits -/

theorem dispatchNode {n : α} (hn : n ∈ w.dag.nodes) : (w.dispatchNode n).Sound := by
  rw [Walk.dispatchNode]
  split
  · next h =>
    obtain ⟨hnew, -, hdeps⟩ := isReady_iff.1 (Bool.and_eq_true_iff.1 h).2
    exact
      { hw with
        nodup_dispatched :=
          hw.nodup_dispatched.append (List.nodup_singleton n) (by simpa using hnew)
        dispatched_subset := by
          intro m hm
          rcases List.mem_append.1 hm with hm | hm
          · exact hw.dispatched_subset hm
          · rw [List.mem_singleton.1 hm]
            exact hn
        ready := by
          intro m hm
          rcases List.mem_append.1 hm with hm | hm
          · exact hw.ready m hm
          · rw [List.mem_singleton.1 hm]
            exact hdeps
        ended_dispatched := fun m hm => List.mem_append_left _ (hw.ended_dispatched m hm) }
  · exact hw

end Sound

@[simp] theorem dag_dispatchNode (w : Walk α) (n : α) : (w.dispatchNode n).dag = w.dag := by
  rw [dispatchNode]
  split <;> rfl

@[simp] theorem report_dispatchNode (w : Walk α) (n : α) :
    (w.dispatchNode n).report = w.report := by
  rw [dispatchNode]
  split <;> rfl

@[simp] theorem cap_dispatchNode (w : Walk α) (n : α) : (w.dispatchNode n).cap = w.cap := by
  rw [dispatchNode]
  split <;> rfl

theorem dispatched_prefix_dispatchNode (w : Walk α) (n : α) :
    w.dispatched <+: (w.dispatchNode n).dispatched := by
  rw [dispatchNode]
  split
  · exact List.prefix_append _ _
  · exact List.prefix_refl _

/-- What every start of a visit keeps, starting all possible visits keeps. -/
theorem dispatch_induction {P : Walk α → Prop} {w : Walk α} (start : P w)
    (step : ∀ v n, n ∈ w.dag.nodes → v.dag = w.dag → P v → P (v.dispatchNode n)) :
    P w.dispatch := by
  have key : ∀ (ns : List α) (v : Walk α), (∀ n ∈ ns, n ∈ w.dag.nodes) → v.dag = w.dag → P v →
      P (ns.foldl Walk.dispatchNode v) := by
    intro ns
    induction ns with
    | nil => intro v _ _ hv; exact hv
    | cons n ns ih =>
      intro v hns hdag hv
      refine ih _ (fun m hm => hns m (List.mem_cons_of_mem _ hm)) ?_ ?_
      · rw [dag_dispatchNode, hdag]
      · exact step v n (hns n List.mem_cons_self) hdag hv
  exact key w.dag.nodes w (fun _ h => h) rfl start

@[simp] theorem dag_dispatch (w : Walk α) : w.dispatch.dag = w.dag :=
  dispatch_induction (P := fun v => v.dag = w.dag) rfl fun v n _ _ hv => by
    rw [dag_dispatchNode, hv]

@[simp] theorem report_dispatch (w : Walk α) : w.dispatch.report = w.report :=
  dispatch_induction (P := fun v => v.report = w.report) rfl fun v n _ _ hv => by
    rw [report_dispatchNode, hv]

@[simp] theorem cap_dispatch (w : Walk α) : w.dispatch.cap = w.cap :=
  dispatch_induction (P := fun v => v.cap = w.cap) rfl fun v n _ _ hv => by
    rw [cap_dispatchNode, hv]

theorem dispatched_prefix_dispatch (w : Walk α) : w.dispatched <+: w.dispatch.dispatched :=
  dispatch_induction (P := fun v => w.dispatched <+: v.dispatched) (List.prefix_refl _)
    fun v n _ _ hv => hv.trans (dispatched_prefix_dispatchNode v n)

theorem Sound.dispatch {w : Walk α} (hw : w.Sound) : w.dispatch.Sound :=
  dispatch_induction (P := Sound) hw fun _ _ hn hdag hv => hv.dispatchNode (hdag ▸ hn)

/-- A walk that has started no visit yet. -/
theorem sound_fresh {d : Dag α} (hd : d.WellFormed) (cap : Option Nat) :
    Sound { dag := d, cap } where
  wellFormed := hd
  nodup_dispatched := .nil
  dispatched_subset := List.nil_subset _
  ready _ h := absurd h List.not_mem_nil
  nodup_settled := .nil
  ended_dispatched _ h := absurd h (by simp)
  blocked_iff n := by simp
  ordered _ h := absurd h List.not_mem_nil

theorem sound_start {d : Dag α} (hd : d.WellFormed) (cap : Option Nat) : (start d cap).Sound :=
  (sound_fresh hd cap).dispatch

/-! ## The end of a visit -/

theorem Sound.mem_behind_iff {w : Walk α} (hw : w.Sound) {n : α} (hn : n ∈ w.dag.nodes) {m : α} :
    m ∈ w.behind n ↔ w.dag.Path m n ∧ m ∉ w.report.settled := by
  obtain ⟨l, hl, -, hmem⟩ := hw.wellFormed.allDependentsOf_eq_ok hn
  simp only [behind, hl, List.mem_filter, Bool.and_eq_true, decide_eq_true_eq, hmem m]
  constructor
  · exact fun h => ⟨h.1, h.2.2⟩
  · rintro ⟨hp, hs⟩
    refine ⟨hp, ?_, hs⟩
    rintro rfl
    exact hw.wellFormed.acyclic m hp

theorem Sound.nodup_behind {w : Walk α} (hw : w.Sound) {n : α} (hn : n ∈ w.dag.nodes) :
    (w.behind n).Nodup := by
  obtain ⟨l, hl, hnodup, -⟩ := hw.wellFormed.allDependentsOf_eq_ok hn
  simp only [behind, hl]
  exact hnodup.filter _

theorem settled_conclude_true (w : Walk α) (n : α) :
    (w.conclude n true).settled.Perm (n :: w.report.settled) := by
  simp only [conclude, WalkReport.settled, if_true, List.append_assoc, List.singleton_append]
  exact List.perm_middle

theorem settled_conclude_false (w : Walk α) (n : α) :
    (w.conclude n false).settled.Perm (n :: (w.report.settled ++ w.behind n)) := by
  simp only [conclude, WalkReport.settled, Bool.false_eq_true, if_false, List.append_assoc,
    List.singleton_append]
  rw [← List.append_assoc]
  refine List.perm_middle.trans ?_
  rw [List.append_assoc]

/-- The walk after a visit that ended well, before new ones are started. -/
theorem Sound.complete {w : Walk α} (hw : w.Sound) {n : α} (hn : n ∈ w.inFlight) :
    Sound { w with report := w.conclude n true } := by
  obtain ⟨hd, hs⟩ := mem_inFlight_iff.1 hn
  have hfresh : n ∉ w.report.completed := fun h => hs (mem_settled_iff.2 (.inl h))
  exact
    { hw with
      ready := fun x hx m hm => List.mem_append_left _ (hw.ready x hx m hm)
      nodup_settled :=
        (settled_conclude_true w n).nodup_iff.2 (List.nodup_cons.2 ⟨hs, hw.nodup_settled⟩)
      ended_dispatched := by
        rintro x (hx | hx)
        · rcases List.mem_append.1 hx with hx | hx
          · exact hw.ended_dispatched x (.inl hx)
          · rw [List.mem_singleton.1 hx]
            exact hd
        · exact hw.ended_dispatched x (.inr hx)
      blocked_iff := hw.blocked_iff
      ordered := fun x hx m hm => by
        refine Dag.idxOf_lt_snoc hfresh hw.ordered (fun x hx y hy => ?_) hx hm
        rcases List.mem_append.1 hx with hx | hx
        · exact hw.ready x (hw.ended_dispatched x (.inl hx)) y hy
        · rw [List.mem_singleton.1 hx] at hy
          exact hw.ready n hd y hy }

/-- What depends on a visited node that has not been completed is either blocked or not settled. -/
theorem Sound.blocked_of_path {w : Walk α} (hw : w.Sound) {n m : α}
    (hn : n ∉ w.report.completed) (h : w.dag.Path m n) (hm : m ∈ w.report.settled) :
    m ∈ w.report.blocked := by
  rcases mem_settled_iff.1 hm with hm | hm | hm
  · exact absurd (hw.completed_of_path (hw.ended_dispatched m (.inl hm)) h) hn
  · exact absurd (hw.completed_of_path (hw.ended_dispatched m (.inr hm)) h) hn
  · exact hm

/-- The walk after a visit that did not end well, before new ones are started. -/
theorem Sound.fail {w : Walk α} (hw : w.Sound) {n : α} (hn : n ∈ w.inFlight) :
    Sound { w with report := w.conclude n false } := by
  obtain ⟨hd, hs⟩ := mem_inFlight_iff.1 hn
  have hfresh : n ∉ w.report.completed := fun h => hs (mem_settled_iff.2 (.inl h))
  have hnode := hw.dispatched_subset hd
  have hbehind : ∀ m, m ∈ w.behind n ↔ w.dag.Path m n ∧ m ∉ w.report.settled :=
    fun m => hw.mem_behind_iff hnode
  exact
    { hw with
      nodup_settled := by
        refine (settled_conclude_false w n).nodup_iff.2 (List.nodup_cons.2 ⟨?_, ?_⟩)
        · rw [List.mem_append, not_or]
          exact ⟨hs, fun h => hw.wellFormed.acyclic n ((hbehind n).1 h).1⟩
        · exact hw.nodup_settled.append (hw.nodup_behind hnode)
            fun m hm hb => ((hbehind m).1 hb).2 hm
      ended_dispatched := by
        rintro x (hx | hx)
        · exact hw.ended_dispatched x (.inl hx)
        · rcases List.mem_append.1 hx with hx | hx
          · exact hw.ended_dispatched x (.inr hx)
          · rw [List.mem_singleton.1 hx]
            exact hd
      blocked_iff := by
        intro m
        simp only [Walk.conclude, Bool.false_eq_true, if_false, List.mem_append,
          List.mem_singleton, hbehind]
        constructor
        · rintro (h | ⟨hp, -⟩)
          · obtain ⟨f, hf, hff⟩ := (hw.blocked_iff m).1 h
            exact ⟨f, hf, .inl hff⟩
          · exact ⟨n, hp, .inr rfl⟩
        · rintro ⟨f, hp, hf | rfl⟩
          · exact .inl ((hw.blocked_iff m).2 ⟨f, hp, hf⟩)
          · by_cases hm : m ∈ w.report.settled
            · exact .inl (hw.blocked_of_path hfresh hp hm)
            · exact .inr ⟨hp, hm⟩ }

theorem Sound.settle {w : Walk α} (hw : w.Sound) {n : α} (hn : n ∈ w.inFlight) (ok : Bool) :
    (w.settle n ok).Sound := by
  cases ok with
  | true => exact (hw.complete hn).dispatch
  | false => exact (hw.fail hn).dispatch

@[simp] theorem dag_settle (w : Walk α) (n : α) (ok : Bool) : (w.settle n ok).dag = w.dag :=
  dag_dispatch _

@[simp] theorem cap_settle (w : Walk α) (n : α) (ok : Bool) : (w.settle n ok).cap = w.cap :=
  cap_dispatch _

@[simp] theorem report_settle (w : Walk α) (n : α) (ok : Bool) :
    (w.settle n ok).report = w.conclude n ok :=
  report_dispatch _

theorem dispatched_prefix_settle (w : Walk α) (n : α) (ok : Bool) :
    w.dispatched <+: (w.settle n ok).dispatched :=
  dispatched_prefix_dispatch { w with report := w.conclude n ok }

theorem mem_settled_settle_iff (w : Walk α) (n m : α) (ok : Bool) :
    m ∈ (w.settle n ok).report.settled ↔
      m = n ∨ m ∈ w.report.settled ∨ ok = false ∧ m ∈ w.behind n := by
  rw [report_settle]
  cases ok with
  | true => simp [(settled_conclude_true w n).mem_iff]
  | false => simp [(settled_conclude_false w n).mem_iff]

/-- The other visits under way go on. -/
theorem Sound.mem_inFlight_settle {w : Walk α} (hw : w.Sound) {n m : α} (hn : n ∈ w.inFlight)
    (hm : m ∈ w.inFlight) (hne : m ≠ n) (ok : Bool) : m ∈ (w.settle n ok).inFlight := by
  obtain ⟨hmd, hms⟩ := mem_inFlight_iff.1 hm
  obtain ⟨hnd, hns⟩ := mem_inFlight_iff.1 hn
  refine mem_inFlight_iff.2 ⟨(dispatched_prefix_settle w n ok).subset hmd, fun h => ?_⟩
  rcases (mem_settled_settle_iff w n m ok).1 h with h | h | ⟨-, h⟩
  · exact hne h
  · exact hms h
  · -- `m` has been started, so all it depends on is completed, and `n` is not.
    have hp := ((hw.mem_behind_iff (hw.dispatched_subset hnd)).1 h).1
    exact hns (mem_settled_iff.2 (.inl (hw.completed_of_path hmd hp)))

theorem mem_visited_settle_iff (w : Walk α) (n m : α) (ok how : Bool) :
    m ∈ (w.settle n ok).report.visited how ↔
      m ∈ w.report.visited how ∨ m = n ∧ how = ok := by
  rw [report_settle, conclude]
  cases ok <;> cases how <;> simp [WalkReport.visited]

/-! ## Walks that wait -/

/-- No visit can be started: there are as many as there may be, or every node that is left has to
wait. -/
def Saturated (w : Walk α) : Prop :=
  w.isFull = true ∨ ∀ n ∈ w.dag.nodes, w.isReady n = false

theorem dispatchNode_of_isFull {w : Walk α} (hw : w.isFull = true) (n : α) :
    w.dispatchNode n = w := by
  rw [dispatchNode, if_neg (by simp [hw])]

theorem isReady_dispatchNode_of_not {w : Walk α} {m : α} (hm : w.isReady m = false) (n : α) :
    (w.dispatchNode n).isReady m = false := by
  rw [← Bool.not_eq_true] at hm ⊢
  refine fun h => hm ?_
  obtain ⟨hd, hs, hdeps⟩ := isReady_iff.1 h
  rw [dag_dispatchNode, report_dispatchNode] at hdeps
  rw [report_dispatchNode] at hs
  exact isReady_iff.2 ⟨fun h => hd ((dispatched_prefix_dispatchNode w n).subset h), hs, hdeps⟩

/-- After its turn a node is not ready any more, or the walk is full. -/
theorem isFull_or_not_isReady_dispatchNode (w : Walk α) (n : α) :
    (w.dispatchNode n).isFull = true ∨ (w.dispatchNode n).isReady n = false := by
  rw [dispatchNode]
  split
  · right
    rw [← Bool.not_eq_true]
    exact fun h => (isReady_iff.1 h).1 (by simp)
  · next h =>
    cases hfull : w.isFull with
    | true => exact .inl rfl
    | false =>
      rw [hfull, Bool.not_false, Bool.true_and, Bool.not_eq_true] at h
      exact .inr h

theorem saturated_dispatch (w : Walk α) : w.dispatch.Saturated := by
  have key : ∀ (ns done : List α) (v : Walk α),
      v.isFull = true ∨ (∀ m ∈ done, v.isReady m = false) →
      (ns.foldl dispatchNode v).isFull = true ∨
        ∀ m ∈ done ++ ns, (ns.foldl dispatchNode v).isReady m = false := by
    intro ns
    induction ns with
    | nil =>
      intro done v hv
      simpa using hv
    | cons n ns ih =>
      intro done v hv
      rw [List.foldl_cons, List.append_cons]
      refine ih (done ++ [n]) (v.dispatchNode n) ?_
      rcases hv with hv | hv
      · left
        rw [dispatchNode_of_isFull hv]
        exact hv
      · rcases isFull_or_not_isReady_dispatchNode v n with h | h
        · exact .inl h
        · refine .inr fun m hm => ?_
          rcases List.mem_append.1 hm with hm | hm
          · exact isReady_dispatchNode_of_not (hv m hm) n
          · rw [List.mem_singleton.1 hm]
            exact h
  rw [Saturated, dag_dispatch]
  exact key w.dag.nodes [] w (.inr fun m hm => absurd hm List.not_mem_nil)

/-! ## The end of a walk -/

/-- A walk that is over and may visit anything at all has settled every node. -/
theorem Sound.settled_perm {w : Walk α} (hw : w.Sound) (hsat : w.Saturated)
    (hover : w.isOver = true) (hcap : w.cap ≠ some 0) : w.report.settled.Perm w.dag.nodes := by
  have hnone : w.inFlight = [] := List.isEmpty_iff.1 hover
  have hready : ∀ n ∈ w.dag.nodes, w.isReady n = false := by
    refine hsat.resolve_left fun hfull => ?_
    rw [isFull, hnone] at hfull
    cases hc : w.cap with
    | none => simp [hc] at hfull
    | some cap =>
      simp only [hc, List.length_nil, decide_eq_true_eq, Nat.le_zero] at hfull
      exact hcap (hc.trans (congrArg some hfull))
  have hall : ∀ n, n ∈ w.dag.nodes → n ∈ w.report.settled := by
    intro n
    induction n using hw.wellFormed.induction_up with
    | step n ih =>
      intro hn
      by_contra hs
      -- Its dependencies are settled. Either all of them well, or one of them blocks `n`.
      have hd : n ∉ w.dispatched := fun hd => by
        have h : n ∈ w.inFlight := mem_inFlight_iff.2 ⟨hd, hs⟩
        rw [hnone] at h
        exact List.not_mem_nil h
      have hwait : ¬ ∀ m, w.dag.Edge n m → m ∈ w.report.completed := fun hdeps => by
        have h := isReady_iff.2 ⟨hd, hs, hdeps⟩
        rw [hready n hn] at h
        cases h
      simp only [not_forall] at hwait
      obtain ⟨m, hm, hmc⟩ := hwait
      refine hs (mem_settled_iff.2 (.inr (.inr ((hw.blocked_iff n).2 ?_))))
      rcases mem_settled_iff.1 (ih m hm (hw.wellFormed.closed n m hm)) with h | h | h
      · exact absurd h hmc
      · exact ⟨m, .edge hm, h⟩
      · obtain ⟨f, hf, hff⟩ := (hw.blocked_iff m).1 h
        exact ⟨f, .cons hm hf, hff⟩
  exact (List.perm_ext_iff_of_nodup hw.nodup_settled hw.wellFormed.nodup_nodes).2 fun n =>
    ⟨fun h => hw.settled_subset h, hall n⟩

end Walk

end Rollout

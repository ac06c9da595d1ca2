import Rollout.Proofs.Dag.Same
import Rollout.Proofs.Walk.Result

/-!
# Which visits are started

A walk that is not bounded leaves no node waiting that could be visited. A sequential walk visits
one node at a time, and always the first of those that could be visited, so nothing is left to
chance in it.

* `Dag.candidates`: the nodes that could be visited, in the order of their insertion.
* `Walk.dispatch_of_idle`: with room for one visit and none under way, the first candidate is taken.
* `Walk.Reached.eq_visitNext`: a sequential walk is told by the number of its visits.
* `Walk.visitNext_onto`: of the graph it reads the order of the nodes and the edges, and nothing
  else.
* `Dag.Built.walk_greedy`: all this of every graph that can be built.
-/

namespace Rollout

variable {α : Type} [DecidableEq α]

namespace Dag

/-- The nodes that could be visited next when the nodes `visited` have had their turn: neither these
nor the blocked ones, and only those all of whose dependencies have been completed. -/
def candidates (d : Dag α) (visited : List α) (r : WalkReport α) : List α :=
  d.nodes.filter fun n =>
    n ∉ visited ∧ n ∉ r.blocked ∧ ∀ m ∈ d.dependencies n, m ∈ r.completed

end Dag

namespace Walk

/-! ## No ready node is left -/

/-- While any number of visits may be under way, a node that has not had its turn waits for one of
its dependencies. -/
theorem Saturated.exists_not_completed {w : Walk α} (hw : w.Saturated) (hcap : w.cap = none) {n : α}
    (hn : n ∈ w.dag.nodes) (hd : n ∉ w.dispatched) (hs : n ∉ w.report.settled) :
    ∃ m, w.dag.Edge n m ∧ m ∉ w.report.completed := by
  have hfull : w.isFull = false := by rw [isFull, hcap]
  have hready := hw.resolve_left (by rw [hfull]; exact Bool.false_ne_true) n hn
  by_contra hall
  refine Bool.eq_false_iff.1 hready (isReady_iff.2 ⟨hd, hs, fun m hm => ?_⟩)
  by_contra hm'
  exact hall ⟨m, hm, hm'⟩

/-! ## One visit at a time -/

theorem inFlight_start_visit {w : Walk α} {n : α} (hn : n ∉ w.report.settled) :
    inFlight { w with dispatched := w.dispatched ++ [n] } = w.inFlight ++ [n] := by
  have hlast : [n].filter (· ∉ w.report.settled) = [n] := by simpa using hn
  rw [inFlight, inFlight, List.filter_append, hlast]

theorem length_inFlight_dispatch {w : Walk α} {cap : Nat} (hcap : w.cap = some cap)
    (hw : w.inFlight.length ≤ cap) : w.dispatch.inFlight.length ≤ cap := by
  have key : w.dispatch.cap = some cap ∧ w.dispatch.inFlight.length ≤ cap := by
    refine dispatch_induction (P := fun v => v.cap = some cap ∧ v.inFlight.length ≤ cap)
      ⟨hcap, hw⟩ fun v n _ _ hv => ⟨by rw [cap_dispatchNode, hv.1], ?_⟩
    rw [dispatchNode]
    split
    · next h =>
      obtain ⟨hfull, hready⟩ := Bool.and_eq_true_iff.1 h
      have hlt : v.inFlight.length < cap := by simpa [isFull, hv.1] using hfull
      rw [inFlight_start_visit (isReady_iff.1 hready).2.1, List.length_append,
        List.length_singleton]
      exact hlt
    · exact hv.2
  exact key.2

/-- The end of the only visit leaves none under way. -/
theorem inFlight_conclude {w : Walk α} (hw : w.inFlight.length ≤ 1) {n : α} (hn : n ∈ w.inFlight)
    (ok : Bool) : inFlight { w with report := w.conclude n ok } = [] := by
  refine List.eq_nil_iff_forall_not_mem.2 fun m hm => ?_
  obtain ⟨hmd, hms⟩ := mem_inFlight_iff.1 hm
  rw [← report_settle, mem_settled_settle_iff, not_or, not_or] at hms
  have hm : m ∈ w.inFlight := mem_inFlight_iff.2 ⟨hmd, hms.2.1⟩
  obtain ⟨k, hk⟩ := List.length_eq_one_iff.1 (Nat.le_antisymm hw (List.length_pos_of_mem hn))
  rw [hk, List.mem_singleton] at hm hn
  exact hms.1 (hm.trans hn.symm)

theorem foldl_dispatchNode_of_isFull {w : Walk α} (hw : w.isFull = true) (ns : List α) :
    ns.foldl dispatchNode w = w := by
  induction ns with
  | nil => rfl
  | cons n ns ih => rw [List.foldl_cons, dispatchNode_of_isFull hw, ih]

/-- With room for one visit the first ready node of a list is the only one that is taken. -/
theorem foldl_dispatchNode_of_idle {w : Walk α} (hcap : w.cap = some 1) (hidle : w.inFlight = [])
    (ns : List α) :
    ns.foldl dispatchNode w =
      { w with dispatched := w.dispatched ++ (ns.find? w.isReady).toList } := by
  have hfull : w.isFull = false := by simp [isFull, hcap, hidle]
  induction ns with
  | nil => simp
  | cons n ns ih =>
    rw [List.foldl_cons, List.find?_cons, dispatchNode, hfull, Bool.not_false, Bool.true_and]
    cases hready : w.isReady n with
    | false => exact ih
    | true =>
      have hvisit := inFlight_start_visit (isReady_iff.1 hready).2.1
      rw [hidle, List.nil_append] at hvisit
      refine foldl_dispatchNode_of_isFull ?_ ns
      rw [if_pos rfl, isFull, hvisit, hcap]
      rfl

/-- Nodes are ready when they are candidates: a node whose visit has ended has had its turn. -/
theorem Sound.filter_isReady {w : Walk α} (hw : w.Sound) :
    w.dag.nodes.filter w.isReady = w.dag.candidates w.dispatched w.report := by
  refine List.filter_congr fun n _ => ?_
  rw [Bool.eq_iff_iff, isReady_iff, decide_eq_true_iff]
  refine and_congr_right fun hd => and_congr_left fun _ => not_congr ?_
  rw [mem_settled_iff]
  exact ⟨fun h => (or_assoc.2 h).resolve_left fun h => hd (hw.ended_dispatched n h),
    fun h => .inr (.inr h)⟩

/-- With room for one visit and none under way, the first candidate is visited. -/
theorem dispatch_of_idle {w : Walk α} (hw : w.Sound) (hcap : w.cap = some 1)
    (hidle : w.inFlight = []) :
    w.dispatch.dispatched =
      w.dispatched ++ (w.dag.candidates w.dispatched w.report).head?.toList := by
  rw [dispatch, foldl_dispatchNode_of_idle hcap hidle, ← List.head?_filter, hw.filter_isReady]

namespace Reached

variable {d : Dag α} {visit : α → Bool} {w : Walk α}

theorem length_inFlight (h : Reached d (some 1) visit w) : w.inFlight.length ≤ 1 := by
  induction h with
  | start => exact length_inFlight_dispatch rfl (Nat.zero_le 1)
  | settle before under ih =>
    refine length_inFlight_dispatch before.cap_eq ?_
    rw [inFlight_conclude ih under]
    exact Nat.zero_le 1

/-- The visit after one that ends is that of the first candidate. -/
theorem dispatched_settle (hd : d.WellFormed) (h : Reached d (some 1) visit w) {n : α}
    (hn : n ∈ w.inFlight) :
    (w.settle n (visit n)).dispatched = w.dispatched ++
      (d.candidates w.dispatched (w.settle n (visit n)).report).head?.toList := by
  have hw : Sound { w with report := w.conclude n (visit n) } := by
    cases visit n with
    | true => exact (h.sound hd).complete hn
    | false => exact (h.sound hd).fail hn
  have hidle := inFlight_conclude h.length_inFlight hn (visit n)
  rw [report_settle, ← h.dag_eq]
  exact dispatch_of_idle hw h.cap_eq hidle

end Reached

/-! ## A sequential walk has no choice -/

theorem visitNext_add (visit : α → Bool) (i j : Nat) (w : Walk α) :
    w.visitNext visit (i + j) = (w.visitNext visit i).visitNext visit j := by
  induction i generalizing w with
  | zero => rw [Nat.zero_add, visitNext]
  | succ i ih =>
    rw [Nat.add_right_comm, visitNext, visitNext]
    split
    · next hidle =>
      cases j with
      | zero => rfl
      | succ j => rw [visitNext, hidle]
    · exact ih _

theorem visitNext_of_isOver {w : Walk α} (hw : w.isOver = true) (visit : α → Bool) (count : Nat) :
    w.visitNext visit count = w := by
  cases count with
  | zero => rfl
  | succ count => rw [visitNext, List.isEmpty_iff.1 hw]

/-- A sequential walk is the one there is with as many visits. -/
theorem Reached.eq_visitNext {d : Dag α} {visit : α → Bool} {w : Walk α}
    (h : Reached d (some 1) visit w) : w = (Walk.start d (some 1)).visitNext visit w.ended := by
  induction h with
  | start =>
    have hnone : (Walk.start d (some 1)).ended = 0 := by
      rw [ended, Walk.start, report_dispatch]
      rfl
    rw [hnone, Walk.visitNext]
  | @settle w n before under ih =>
    obtain ⟨k, hk⟩ := List.length_eq_one_iff.1
      (Nat.le_antisymm before.length_inFlight (List.length_pos_of_mem under))
    obtain rfl : n = k := by
      rw [hk] at under
      exact List.mem_singleton.1 under
    rw [ended_settle, visitNext_add, ← ih, Walk.visitNext, hk]
    rfl

/-- A walk with `e` in the place of its graph. -/
def onto (w : Walk α) (e : Dag α) : Walk α := { w with dag := e }

variable {w : Walk α} {e : Dag α} (agrees : w.dag.Agrees e)
include agrees

theorem isReady_onto (n : α) : (w.onto e).isReady n = w.isReady n := by
  rw [Bool.eq_iff_iff, isReady_iff, isReady_iff]
  exact and_congr_right fun _ => and_congr_right fun _ =>
    forall_congr' fun m => imp_congr_left (agrees.edge n m)

theorem dispatchNode_onto (n : α) : (w.onto e).dispatchNode n = (w.dispatchNode n).onto e := by
  rw [dispatchNode, dispatchNode, isReady_onto agrees]
  have hfull : (w.onto e).isFull = w.isFull := rfl
  rw [hfull]
  split <;> rfl

theorem dispatch_onto : (w.onto e).dispatch = w.dispatch.onto e := by
  have key : ∀ (ns : List α) (v : Walk α), v.dag.Agrees e →
      ns.foldl dispatchNode (v.onto e) = (ns.foldl dispatchNode v).onto e := by
    intro ns
    induction ns with
    | nil => intro v _; rfl
    | cons n ns ih =>
      intro v hv
      rw [List.foldl_cons, List.foldl_cons, dispatchNode_onto hv]
      exact ih _ (by rwa [dag_dispatchNode])
  rw [dispatch, dispatch, show (w.onto e).dag.nodes = w.dag.nodes from agrees.nodes]
  exact key _ w agrees

theorem behind_onto (hw : w.dag.Simple) (he : e.Simple) (n : α) :
    (w.onto e).behind n = w.behind n := by
  have hall : (w.onto e).dag.allDependentsOf n = w.dag.allDependentsOf n := by
    rw [Dag.allDependentsOf, Dag.allDependentsOf, ← agrees.transpose hw he]
    rfl
  rw [behind, behind, hall]
  rfl

theorem settle_onto (hw : w.dag.Simple) (he : e.Simple) (n : α) (ok : Bool) :
    (w.onto e).settle n ok = (w.settle n ok).onto e := by
  have hreport : (w.onto e).conclude n ok = w.conclude n ok := by
    rw [conclude, conclude, behind_onto agrees hw he]
    rfl
  rw [settle, hreport]
  exact dispatch_onto (w := { w with report := w.conclude n ok }) agrees

/-- Visits that end alike, on graphs that agree, bring about the same. -/
theorem visitNext_onto (hw : w.Sound) (he : e.Simple) {visit visit' : α → Bool}
    (hvisit : ∀ n ∈ w.dag.nodes, visit' n = visit n) (count : Nat) :
    (w.onto e).visitNext visit' count = (w.visitNext visit count).onto e := by
  induction count generalizing w with
  | zero => rfl
  | succ count ih =>
    rw [visitNext, visitNext, show (w.onto e).inFlight = w.inFlight from rfl]
    split
    · rfl
    · next n rest hflight =>
      have hn : n ∈ w.inFlight := hflight ▸ List.mem_cons_self
      have hnode := hw.dispatched_subset (mem_inFlight_iff.1 hn).1
      rw [hvisit n hnode, settle_onto agrees hw.wellFormed.simple he]
      refine ih (by rwa [dag_settle]) (hw.settle hn _) ?_
      rwa [dag_settle]

omit agrees

theorem start_onto {d : Dag α} (agrees : d.Agrees e) (cap : Option Nat) :
    start e cap = (start d cap).onto e :=
  dispatch_onto (w := { dag := d, cap }) agrees

/-- Two sequential walks on graphs that agree, with visits that end alike, are the same as soon as
equally many visits have ended, and when they are over. -/
theorem Reached.sequential_eq {d : Dag α} (hd : d.WellFormed) (he : e.WellFormed)
    (agrees : d.Agrees e) {visit visit' : α → Bool} (hvisit : ∀ n ∈ d.nodes, visit' n = visit n)
    {v : Walk α} (hw : Reached d (some 1) visit w) (hv : Reached e (some 1) visit' v)
    (stage : v.ended = w.ended ∨ v.isOver = true ∧ w.isOver = true) : v = w.onto e := by
  have hcount : ∃ count, w = (Walk.start d (some 1)).visitNext visit count ∧
      v = (Walk.start e (some 1)).visitNext visit' count := by
    rcases stage with hended | ⟨hvover, hwover⟩
    · exact ⟨w.ended, hw.eq_visitNext, hended ▸ hv.eq_visitNext⟩
    · refine ⟨w.ended + v.ended, ?_, ?_⟩
      · rw [visitNext_add, ← hw.eq_visitNext, visitNext_of_isOver hwover]
      · rw [Nat.add_comm, visitNext_add, ← hv.eq_visitNext, visitNext_of_isOver hvover]
  obtain ⟨count, rfl, rfl⟩ := hcount
  have hdag : (Walk.start d (some 1)).dag = d := dag_dispatch _
  rw [start_onto agrees]
  exact visitNext_onto (by rwa [hdag]) (sound_start hd _) he.simple (by rwa [hdag]) count

end Walk

/-- Walks that are not sequential leave no ready node idle: one that has had no turn and has not
ended up anywhere has a dependency that is not completed. A sequential walk has one visit under way
at most, its first visit and the visit after each that ends is that of the first candidate, and on
every graph with the same nodes in the same order and the same edges it makes the same visits, with
the same report, if the visits end alike. -/
theorem Dag.Built.walk_greedy {d : Dag α} (hd : d.Built) (ends : α → VisitEnd) :
    (∀ walker : Walker, walker ≠ .sequential →
      ∀ w, Walk.Reached d walker.cap (fun n => (ends n).isOk) w →
        ∀ n ∈ d.nodes, n ∉ w.dispatched → n ∉ w.report.settled →
          ∃ m, d.Edge n m ∧ m ∉ w.report.completed) ∧
    (Walk.start d Walker.sequential.cap).dispatched = (d.candidates [] {}).head?.toList ∧
    ∀ w, Walk.Reached d Walker.sequential.cap (fun n => (ends n).isOk) w →
      w.inFlight.length ≤ 1 ∧
      (∀ n ∈ w.inFlight, (w.settle n (ends n).isOk).dispatched = w.dispatched ++
        (d.candidates w.dispatched (w.settle n (ends n).isOk).report).head?.toList) ∧
      ∀ (e : Dag α) (ends' : α → VisitEnd) (v : Walk α), e.Built → d.Agrees e →
        (∀ n ∈ d.nodes, (ends' n).isOk = (ends n).isOk) →
        Walk.Reached e Walker.sequential.cap (fun n => (ends' n).isOk) v →
        (v.ended = w.ended ∨ v.isOver = true ∧ w.isOver = true) →
        v.dispatched = w.dispatched ∧ v.report = w.report := by
  have hwf := hd.wellFormed
  refine ⟨fun walker hwalker w hw n hn hnd hns => ?_, ?_, fun w hw => ⟨?_, ?_, ?_⟩⟩
  · have hcap : walker.cap = none := by
      cases walker with
      | sequential => exact absurd rfl hwalker
      | unbounded => rfl
      | bounded _ _ => rfl
    rw [← hw.dag_eq] at hn ⊢
    exact hw.saturated.exists_not_completed (hw.cap_eq.trans hcap) hn hnd hns
  · exact Walk.dispatch_of_idle (Walk.sound_fresh hwf (some 1)) rfl rfl
  · exact hw.length_inFlight
  · exact fun n hn => hw.dispatched_settle hwf hn
  · intro e ends' v he agrees hvisit hv stage
    obtain rfl := hw.sequential_eq hwf he.wellFormed agrees hvisit hv stage
    exact ⟨rfl, rfl⟩

/-- A node above two others. -/
def Dag.fork : Dag Nat := ⟨[(1, [2, 3]), (2, []), (3, [])]⟩

/-- The same with the two in the other order. -/
def Dag.turnedFork : Dag Nat := ⟨[(1, [3, 2]), (2, []), (3, [])]⟩

theorem Dag.agrees_turnedFork : Dag.fork.Agrees Dag.turnedFork := by
  refine ⟨rfl, fun a b => ?_⟩
  by_cases ha : a = 1
  · subst ha
    exact (List.Perm.swap 2 3 []).mem_iff
  · have h : Dag.turnedFork.dependencies a = Dag.fork.dependencies a := by
      rw [Dag.dependencies, Dag.dependencies, Dag.turnedFork, Dag.fork, lookup_cons_of_ne ha,
        lookup_cons_of_ne ha]
    rw [Edge, Edge, h]

/-- The order in which a node lists its dependencies does not matter: the walk of either graph
begins with the lower node that was inserted first, and the reports are the same. -/
theorem Dag.walk_greedy_fork :
    (Walk.start Dag.fork Walker.sequential.cap).dispatched = [2] ∧
    (Dag.turnedFork.walk .sequential
      fun n => (if n = 3 then VisitEnd.crashed else .returned true).isOk) =
    Dag.fork.walk .sequential
      fun n => (if n = 3 then VisitEnd.crashed else .returned true).isOk := by
  have hfork : Dag.fork.Built := built_of_ofDependencies Dag.fork.entries (by decide +kernel)
  have hturned : Dag.turnedFork.Built :=
    built_of_ofDependencies Dag.turnedFork.entries (by decide +kernel)
  have hend (d : Dag Nat) (hd : d.Built) (visit : Nat → Bool) :
      Walk.Reached d (some 1) visit ((Walk.start d (some 1)).visitNext visit d.size) ∧
        ((Walk.start d (some 1)).visitNext visit d.size).isOver = true :=
    Walk.Reached.start.visitNext hd.wellFormed (Nat.le_add_left d.size _)
  obtain ⟨-, hfirst, hgreedy⟩ :=
    hfork.walk_greedy fun n => if n = 3 then .crashed else .returned true
  obtain ⟨hw, hwover⟩ := hend _ hfork _
  obtain ⟨hv, hvover⟩ := hend _ hturned _
  refine ⟨hfirst.trans (by decide), ?_⟩
  exact ((hgreedy _ hw).2.2 _ _ _ hturned agrees_turnedFork (fun _ _ => rfl) hv
    (.inr ⟨hvover, hwover⟩)).2

end Rollout

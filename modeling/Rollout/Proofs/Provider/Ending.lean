import Rollout.Proofs.Provider.Settling

/-!
# No stack stays in progress

A stack that is in progress gets out of it by being described, whatever was requested before and
whatever happens to other stacks meanwhile. The states that are still to be reported say how often
it has to be described, and where that ends.

* `Simulator.Ends` and `Simulator.lasting_ends`: the last state that is to be reported is settled.
* `Simulator.Event.Arranges` and `Simulator.Event.Ordinary`: what happens to a simulator, at first
  and then.
* `Simulator.Record.Kept` and `Simulator.kept_after`: what every record is like then.
* `Simulator.Record.later?` and `Simulator.after_of_spares`: a stack that is described some times.
* `Simulator.Record.Later` and `Simulator.Record.later_later?`: what it is like then.
* `Simulator.gets_out_of_progress`: all of that, for every record that there can be.
-/

namespace Rollout.Simulator

variable {s : Simulator} {r : Record} {fqn : String} {event : Event} {setup events : List Event}

/-! ## The last state -/

/-- The last state is not in progress. -/
def Ends (states : List StackState) : Prop :=
  ∀ last ∈ states.getLast?, last.isInProgress = false

theorem lasting_ends : Lasting Ends where
  course course hcourse n := by
    have hsettles : ∀ course ∈ courses, course.2 ≠ [] ∧ Ends course.2 := by
      simp only [Ends]
      decide
    obtain ⟨hsome, hends⟩ := hsettles course hcourse
    rw [Ends, ← List.cons_append, List.getLast?_append_of_ne_nil _ hsome]
    exact hends
  report state next rest h := by rwa [Ends, List.getLast?_cons_cons] at h

/-- A stack is in progress exactly if there are states of it still to be reported. -/
theorem Record.isInProgress_iff (horderly : Orderly r.states) (hends : Ends r.states) :
    r.stack.state.isInProgress = true ↔ r.transitions ≠ [] := by
  constructor
  · intro hprogress hnil
    have hsettled := hends r.stack.state (by rw [states, hnil]; rfl)
    rw [hprogress] at hsettled
    cases hsettled
  · intro hsome
    cases hprogress : r.stack.state.isInProgress with
    | true => rfl
    | false => exact absurd (horderly.transitions_eq_nil hprogress) hsome

/-! ## What happens to a simulator -/

/-- An event says how many descriptions operations take or which outputs are to come. -/
def Event.Arranges : Event → Prop
  | .ticks _ | .outputs _ _ => True
  | .fail _ _ | .insert _ | .request _ => False

/-- An event that happens to a simulator in use: an operation is marked, a request comes in, or a
stack is put there which is settled. -/
def Event.Ordinary : Event → Prop
  | .fail _ _ | .request _ => True
  | .insert stack => stack.state.isInProgress = false ∧ stack.state.isDeleted = false
  | .ticks _ | .outputs _ _ => False

/-- As long as a simulator is only arranged, there are no stacks. -/
theorem records_arranged (hsetup : ∀ event ∈ setup, event.Arranges)
    (h : ∀ fqn, s.records.get? fqn = none) (fqn : String) :
    (s.after setup).records.get? fqn = none := by
  induction setup generalizing s with
  | nil => exact h fqn
  | cons event setup ih =>
    refine ih (fun later hmem => hsetup later (List.mem_cons_of_mem _ hmem)) fun name => ?_
    cases event with
    | ticks n => exact h name
    | outputs stack outputs =>
      rw [next, withOutputs, Table.get?_modify, h name]
      split <;> rfl
    | fail _ _ | insert _ | request _ => cases hsetup _ List.mem_cons_self

theorem ticks_next (hevent : event.Ordinary) : (s.next event).ticks = s.ticks := by
  cases event with
  | fail name operation =>
    rw [next, fail]
    split <;> rfl
  | insert stack => rfl
  | request request => exact (changedAt_answer (s.log request.operation request.fqn) request).ticks
  | ticks _ | outputs _ _ => cases hevent

/-! ## What records are like -/

/-- A record is that of the stack of a name, the stack is there, and not more is left to report than
an operation can leave that takes some descriptions. -/
structure Record.Kept (r : Record) (fqn : String) (ticks : Nat) : Prop where
  named : r.stack.fqn = fqn
  present : r.stack.state.isDeleted = false
  length_le : r.transitions.length ≤ ticks + 1

theorem length_agenda_le (s : Simulator) (fqn : String) (task : Task) :
    (s.agenda fqn task).length ≤ s.ticks + 1 := by
  have hsettled : ∀ badly, (task.settled badly).length ≤ 2 := by cases task <;> decide
  have hlength := hsettled (s.isMarked fqn task.operation)
  have hpos := s.ticks_pos
  rw [agenda, schedule, List.length_append, List.length_replicate]
  omega

/-- An operation starts with such a record. -/
theorem kept_agenda {stack : Deployment} {task : Task} (hstate : stack.state = task.progress)
    (hnamed : stack.fqn = fqn) : Record.Kept ⟨stack, s.agenda fqn task⟩ fqn s.ticks :=
  ⟨hnamed, (congrArg StackState.isDeleted hstate).trans task.progress_open.2,
    length_agenda_le s fqn task⟩

theorem Record.Kept.tick {ticks : Nat} (h : r.Kept fqn ticks) {coming : Option (Table String)}
    (hpresent : (tick coming r).stack.state.isDeleted = false) :
    (tick coming r).Kept fqn ticks := by
  obtain ⟨stack, transitions⟩ := r
  cases transitions with
  | nil => exact h
  | cons next rest => exact ⟨h.named, hpresent, Nat.le_of_succ_le h.length_le⟩

theorem kept_next (hevent : event.Ordinary)
    (h : ∀ r, s.records.get? fqn = some r → r.Kept fqn s.ticks)
    (hr : (s.next event).records.get? fqn = some r) : r.Kept fqn (s.next event).ticks := by
  rw [ticks_next hevent]
  cases comesOf_next hr with
  | left found => exact h r found
  | supplied _ found => cases hevent
  | described found present => exact (h _ found).tick present
  | created state named => exact kept_agenda state named
  | started task state found named => exact kept_agenda state (named.trans (h _ found).named)
  | put named => exact ⟨named, hevent.2, Nat.zero_le _⟩

theorem kept_after (hevents : ∀ event ∈ events, event.Ordinary)
    (h : ∀ r, s.records.get? fqn = some r → r.Kept fqn s.ticks) :
    ∀ r, (s.after events).records.get? fqn = some r → r.Kept fqn s.ticks := by
  induction events generalizing s with
  | nil => exact h
  | cons event events ih =>
    have hevent := hevents event List.mem_cons_self
    rw [← ticks_next hevent]
    exact ih (fun later hmem => hevents later (List.mem_cons_of_mem _ hmem))
      fun r hr => kept_next hevent h hr

/-! ## Descriptions -/

/-- A record after the stack was described some times, if the stack is still there. -/
def Record.later? (coming : Option (Table String)) : Nat → Record → Option Record
  | 0, r => some r
  | n + 1, r => (r.next? coming).bind (later? coming n)

/-- Of a stack that is left alone the record is what descriptions make of it. -/
theorem after_of_spares (hspares : ∀ event ∈ events, event.Spares fqn) (s : Simulator) :
    (s.after events).records.get? fqn =
      (s.records.get? fqn).bind
        (Record.later? (s.outputs.get? fqn) (events.countP (·.asks fqn .describe))) := by
  induction events generalizing s with
  | nil =>
    show s.records.get? fqn = _
    cases s.records.get? fqn <;> rfl
  | cons event events ih =>
    obtain ⟨hrecord, houtputs⟩ := next_of_spares (hspares event List.mem_cons_self) s
    have hlater := ih (fun later hmem => hspares later (List.mem_cons_of_mem _ hmem)) (s.next event)
    rw [hrecord, houtputs] at hlater
    rw [countP_asks_cons]
    refine hlater.trans ?_
    cases event.asks fqn .describe with
    | true =>
      rw [if_pos rfl, Option.bind_assoc, Bool.toNat_true, Nat.add_comm]
      rfl
    | false => rw [if_neg Bool.false_ne_true, Bool.toNat_false, Nat.zero_add]

/-- What there is of a stack whose record was this one, after it was described some times: it is in
progress until all of its states were reported. Then it is in the last of them, or gone if that was
the end of a deletion. -/
inductive Record.Later (r : Record) (n : Nat) : Option Record → Prop where
  | running {now : Record} (early : n < r.transitions.length)
      (progress : now.stack.state.isInProgress = true)
      (rest : now.transitions = r.transitions.drop n) : Later r n (some now)
  | settled {now : Record} (late : r.transitions.length ≤ n)
      (last : r.states.getLast? = some now.stack.state)
      (settled : now.stack.state.isInProgress = false)
      (present : now.stack.state.isDeleted = false) (rest : now.transitions = []) :
      Later r n (some now)
  | gone (late : r.transitions.length ≤ n) (last : r.states.getLast? = some .deleteComplete) :
      Later r n none

namespace Record

/-- A stack with nothing left to report is the same after one more description. -/
theorem Later.succ_of_nil {n : Nat} {now : Option Record} (h : r.Later n now)
    (hnil : r.transitions = []) : r.Later (n + 1) now := by
  cases h with
  | running early _ _ =>
    rw [hnil] at early
    cases early
  | settled late last settled present rest =>
    exact .settled (Nat.le_succ_of_le late) last settled present rest
  | gone late last => exact .gone (Nat.le_succ_of_le late) last

/-- The first description takes a stack to the first of the states that are left. -/
theorem Later.succ_of_cons {n : Nat} {now : Option Record} {stack stack' : Deployment}
    {rest : List StackState} (h : Later ⟨stack', rest⟩ n now) :
    Later ⟨stack, stack'.state :: rest⟩ (n + 1) now := by
  have hlast : (states ⟨stack, stack'.state :: rest⟩).getLast? = (states ⟨stack', rest⟩).getLast? :=
    List.getLast?_cons_cons
  cases h with
  | running early progress rest => exact .running (Nat.succ_lt_succ early) progress rest
  | settled late last settled present rest =>
    exact .settled (Nat.succ_le_succ late) (hlast.trans last) settled present rest
  | gone late last => exact .gone (Nat.succ_le_succ late) (hlast.trans last)

theorem next?_of_present {coming : Option (Table String)}
    (h : (tick coming r).stack.state.isDeleted = false) :
    r.next? coming = some (tick coming r) :=
  if_neg (Bool.eq_false_iff.1 h)

theorem later_later? (horderly : Orderly r.states) (hends : Ends r.states)
    (hpresent : r.stack.state.isDeleted = false) (coming : Option (Table String)) (n : Nat) :
    r.Later n (later? coming n r) := by
  induction n generalizing r with
  | zero =>
    cases hprogress : r.stack.state.isInProgress with
    | true =>
      have hsome := (isInProgress_iff horderly hends).1 hprogress
      exact .running (List.length_pos_iff.2 hsome) hprogress rfl
    | false =>
      have hnil := horderly.transitions_eq_nil hprogress
      refine .settled ?_ ?_ hprogress hpresent hnil
      · exact Nat.le_of_eq (congrArg List.length hnil)
      · rw [states, hnil, List.getLast?_singleton]
  | succ n ih =>
    obtain ⟨stack, transitions⟩ := r
    cases transitions with
    | nil =>
      have hnext : next? coming ⟨stack, []⟩ = some ⟨stack, []⟩ := next?_of_present hpresent
      rw [later?, hnext]
      exact (ih horderly hends hpresent).succ_of_nil rfl
    | cons next rest =>
      -- The order holds of what is left, so a deletion can only end in the last state.
      have hrest := lasting_orderly.report _ _ _ horderly
      cases hdeleted : next.isDeleted with
      | true =>
        obtain rfl : next = .deleteComplete := by cases next <;> first | rfl | cases hdeleted
        obtain rfl : rest = [] :=
          Orderly.transitions_eq_nil (r := tick coming ⟨stack, .deleteComplete :: rest⟩) hrest rfl
        exact .gone (Nat.succ_le_succ (Nat.zero_le n)) rfl
      | false =>
        rw [later?, next?_of_present (r := ⟨stack, next :: rest⟩) hdeleted]
        have hlater := ih (r := tick coming ⟨stack, next :: rest⟩) hrest
          (lasting_ends.report _ _ _ hends) hdeleted
        exact hlater.succ_of_cons

end Record

/-! ## A way out -/

/-- A simulator is arranged, and then it is in use for a while. Each record there is then is that of
the stack of its name. It is in progress exactly if there are states still to be reported, of which
the last one is settled, and it has not been deleted. As many descriptions as there are states left,
not more than one more than an operation takes, settle the stack or make it go, if nothing else
happens to it. -/
theorem gets_out_of_progress (hsetup : ∀ event ∈ setup, event.Arranges)
    (hevents : ∀ event ∈ events, event.Ordinary)
    (hr : ((({} : Simulator).after setup).after events).records.get? fqn = some r) :
    r.stack.fqn = fqn ∧ (r.stack.state.isInProgress = true ↔ r.transitions ≠ []) ∧
      (∀ last ∈ r.transitions.getLast?, last.isInProgress = false) ∧
      r.stack.state ≠ .deleteComplete ∧
      r.transitions.length ≤ (({} : Simulator).after setup).ticks + 1 ∧
      ∀ later, (∀ event ∈ later, event.Spares fqn) →
        r.Later (later.countP (·.asks fqn .describe))
          (((({} : Simulator).after setup).after events).after later |>.records.get? fqn) := by
  have hnone := records_arranged (s := {}) hsetup fun _ => rfl
  have hempty : ∀ {P : Record → Prop} fqn r,
      (({} : Simulator).after setup).records.get? fqn = some r → P r := by
    intro P fqn r hr
    rw [hnone fqn] at hr
    cases hr
  have hinsert : ∀ stack, Event.insert stack ∈ events → Ends [stack.state] := by
    intro stack hmem last hlast
    cases hlast
    exact (hevents _ hmem).1
  have horderly := lasting_orderly.after hempty (fun _ _ => nofun) fqn r hr
  have hends := lasting_ends.after hempty hinsert fqn r hr
  have hkept := kept_after hevents (hempty fqn) r hr
  refine ⟨hkept.named, Record.isInProgress_iff horderly hends, ?_, ?_, hkept.length_le, ?_⟩
  · intro last hlast
    obtain ⟨stack, transitions⟩ := r
    cases transitions with
    | nil => cases hlast
    | cons next rest => exact lasting_ends.report _ _ _ hends last hlast
  · intro hstate
    have hpresent := hkept.present
    rw [hstate] at hpresent
    cases hpresent
  · intro later hspares
    rw [after_of_spares hspares, hr]
    exact Record.later_later? horderly hends hkept.present _ _

/-- A create that ends badly, of a stack that is destroyed while it is rolled back. -/
def overruled : List Event :=
  [.fail "n-a" .create, .request (.create ⟨"n-a", .ofBody "t", .empty⟩),
    .request (.describe "n-a"), .request (.describe "n-a"), .request (.destroy "n-a")]

/-- The record of the stack then. -/
def onItsWayOut : Record :=
  ⟨⟨"n-a", .deleteInProgress, some (RenderedTemplate.ofBody "t").hash, .empty⟩,
    [.deleteInProgress, .deleteComplete]⟩

/-- Two descriptions and a mark that comes too late. -/
def watched : List Event :=
  [.request (.describe "n-a"), .fail "n-a" .destroy, .request (.describe "n-a")]

/-- What was left of the create is forgotten, and the stack is gone when it was described twice. -/
theorem gets_out_of_progress_overruled :
    ((({} : Simulator).after [.ticks 2]).after overruled).records.get? "n-a" = some onItsWayOut ∧
      onItsWayOut.stack.state.isInProgress = true ∧ onItsWayOut.transitions.length ≤ 2 + 1 ∧
      onItsWayOut.Later 2
        (((({} : Simulator).after [.ticks 2]).after overruled).after watched |>.records.get?
          "n-a") := by
  have hsetup : ∀ event ∈ [Event.ticks 2], event.Arranges := by simp [Event.Arranges]
  have hevents : ∀ event ∈ overruled, event.Ordinary := by simp [overruled, Event.Ordinary]
  have hspares : ∀ event ∈ watched, event.Spares "n-a" := by
    simp [watched, Event.Spares, Request.fqn, Request.operation]
  have hr : ((({} : Simulator).after [.ticks 2]).after overruled).records.get? "n-a" =
      some onItsWayOut := rfl
  obtain ⟨-, hprogress, -, -, hlength, hlater⟩ := gets_out_of_progress hsetup hevents hr
  exact ⟨hr, hprogress.2 (List.cons_ne_nil _ _), hlength, hlater watched hspares⟩

end Rollout.Simulator

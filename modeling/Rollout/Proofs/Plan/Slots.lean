import Mathlib.Data.List.Nodup
import Mathlib.Logic.Function.Basic
import Rollout.Plan.Rehearsal
import Rollout.Proofs.Plan.Build
import Rollout.Proofs.Plan.Invariant

/-!
# Slots

A bounded walker has as many slots as its limit says. At every moment of a run each of them is
spare, set aside for a worker that waits, or held by a worker inside of a call.

* `Phase.place`: where a worker is, as far as slots are concerned.
* `Run.Handled` and `handled_of_move?`: what a move does with the slots. Only a worker that goes on
  takes a slot or gives one back.
* `Plan.Ledger`: who holds a slot, told by the number of free slots alone.
* `Run.Accounted`: the invariant. The ledger names the workers inside of calls, the queue those that
  wait, and the free slots are the rest.
* `Plan.slots_conserved`: no slot is lost or given twice, and a worker that waits for one waits for
  a worker that has one.
-/

namespace Rollout

variable {μ σ : Type}

/-! ## Places -/

/-- Where a worker is, as far as slots are concerned. -/
inductive Place where
  /-- It needs no slot: it decides, sleeps, lets others go first, has ended, or is not there. -/
  | outside
  /-- It waits for a slot. -/
  | waiting
  /-- It is inside of a call. -/
  | inside
  deriving DecidableEq

/-- The place of a worker in some phase. -/
def Phase.place : Phase μ → Place
  | queued => .waiting
  | advancing _ | pausing _ _ => .inside
  | _ => .outside

theorem Phase.place_eq_inside_iff {phase : Phase μ} :
    phase.place = .inside ↔ phase.isAdvancing = true := by
  cases phase <;> simp [place, isAdvancing]

theorem Phase.place_eq_waiting_iff {phase : Phase μ} :
    phase.place = .waiting ↔ phase = .queued := by
  cases phase <;> simp [place]

/-- The free slots that are not set aside for anyone. -/
def Slots.spare (s : Slots) : Nat := s.free.getD 0 - s.granted.length

theorem Slots.spare_add_granted {s : Slots} {free : Nat} (h : s.free = some free) :
    s.spare + s.granted.length = free := by
  unfold spare granted
  simp only [h, Option.getD_some, List.length_take]
  omega

/-- As long as a slot is spare, one is set aside for everyone who waits. -/
theorem Slots.mem_granted_of_spare {s : Slots} {free : Nat} (h : s.free = some free)
    (hspare : s.spare ≠ 0) {name : String} (hname : name ∈ s.waiting) : name ∈ s.granted := by
  have hlength := spare_add_granted h
  unfold granted at hlength ⊢
  simp only [h, List.length_take] at hlength ⊢
  rw [List.take_of_length_le (by omega)]
  exact hname

theorem Slots.granted_sublist (s : Slots) : s.granted.Sublist s.waiting := by
  unfold granted
  split
  · exact .refl _
  · exact List.take_sublist _ _

theorem Slots.grants_iff {s : Slots} {name : String} : s.grants name = true ↔ name ∈ s.granted := by
  simp [grants]

/-- Who is given a slot takes a free one. -/
theorem Slots.exists_free_of_grants {s : Slots} {free : Nat} (h : s.free = some free)
    {name : String} (hgrants : s.grants name = true) : ∃ rest, free = rest + 1 := by
  rw [grants_iff, granted, h] at hgrants
  apply Nat.exists_eq_add_one_of_ne_zero
  rintro rfl
  simp at hgrants

namespace Run

variable {r s : Run μ σ} {name : String}

/-- The place of the worker of a step. -/
def place (r : Run μ σ) (name : String) : Place :=
  (r.workers.get? name).elim .outside (·.phase.place)

theorem place_of_some {worker : Worker μ} (hw : r.workers.get? name = some worker) :
    r.place name = worker.phase.place := by
  rw [place, hw, Option.elim_some]

/-- A worker with a place in the queue or in a call is there. -/
theorem exists_worker_of_place (h : r.place name ≠ .outside) :
    ∃ worker, r.workers.get? name = some worker := by
  cases hw : r.workers.get? name with
  | none => simp [place, hw] at h
  | some worker => exact ⟨worker, rfl⟩

/-- When one worker changes, the others keep their places. -/
theorem place_eq_update {worker : Worker μ} {f : Worker μ → Worker μ}
    (hw : r.workers.get? name = some worker) (hs : s.workers = r.workers.modify name f) :
    s.place = Function.update r.place name (f worker).phase.place := by
  funext m
  by_cases hm : m = name
  · subst hm
    rw [Function.update_self, place, hs, Table.get?_modify_self hw, Option.elim_some]
  · rw [Function.update_of_ne hm, place, place, hs, Table.get?_modify_of_ne _ hm]

theorem place_setPhase {worker : Worker μ} (hw : r.workers.get? name = some worker)
    (hs : s.workers = r.workers) (phase : Phase μ) :
    (s.setPhase name phase).place = Function.update r.place name phase.place :=
  place_eq_update (f := fun w => { w with phase }) hw (by rw [setPhase, hs])

@[simp] theorem slots_setStatus (r : Run μ σ) (name : String) (status : Status) :
    (r.setStatus name status).1.slots = r.slots := by
  unfold setStatus
  split
  · rfl
  · split <;> rfl

@[simp] theorem workers_setStatus (r : Run μ σ) (name : String) (status : Status) :
    (r.setStatus name status).1.workers = r.workers := by
  unfold setStatus
  split
  · rfl
  · split <;> rfl

@[simp] theorem slots_interrupt (r : Run μ σ) (name : String) :
    (r.interrupt name).slots = r.slots :=
  slots_setStatus r name _

theorem place_interrupt {worker : Worker μ} (hw : r.workers.get? name = some worker)
    (hs : s.workers = r.workers) :
    (s.interrupt name).place = Function.update r.place name .outside :=
  place_setPhase hw (by rw [workers_setStatus, hs]) (.finished false)

@[simp] theorem slots_setMemo (r : Run μ σ) (name : String) (memo : μ) :
    (r.setMemo name memo).slots = r.slots := by
  unfold setMemo
  split <;> rfl

@[simp] theorem workers_setMemo (r : Run μ σ) (name : String) (memo : μ) :
    (r.setMemo name memo).workers = r.workers := by
  unfold setMemo
  split <;> rfl

@[simp] theorem slots_endCall (r : Run μ σ) (name : String) (outcome : Outcome) :
    (r.endCall name outcome).slots = r.slots.release := by
  simp [endCall]

/-- However a call ends, and whether or not the sink breaks down over that, its worker is outside
afterwards. -/
theorem place_endCall {worker : Worker μ} (hw : r.workers.get? name = some worker)
    (hs : s.workers = r.workers) (outcome : Outcome) :
    (s.endCall name outcome).place = Function.update r.place name .outside := by
  cases hbroke : (s.setStatus name outcome.status).2 with
  | true =>
    have hworkers : (s.endCall name outcome).workers =
        r.workers.modify name fun w => { w with phase := .finished false } := by
      simp [endCall, hbroke, hs]
    exact place_eq_update hw hworkers
  | false =>
    have hworkers : (s.endCall name outcome).workers =
        r.workers.modify name fun w => ⟨w.attempt + 1, .deciding⟩ := by
      simp [endCall, hbroke, hs]
    exact place_eq_update hw hworkers

/-! ## What moves do with slots -/

/-- What a move does with the slots, and with the places of the workers. -/
inductive Handled (r : Run μ σ) (move : Move) (s : Run μ σ) : Prop where
  /-- Nothing. -/
  | kept (slots : s.slots = r.slots) (places : s.place = r.place)
  /-- A worker begins to wait. -/
  | entered {name : String} (before : r.place name = .outside)
      (slots : s.slots = r.slots.enter name)
      (places : s.place = Function.update r.place name .waiting)
  /-- A worker has heard that the run was called off, and does not wait any more. -/
  | left {name : String} (before : r.place name ≠ .inside)
      (slots : s.slots = r.slots.leave name)
      (places : s.place = Function.update r.place name .outside)
  /-- A worker takes a slot and begins a call. -/
  | taken {name : String} (mover : move = .work name) (granted : r.slots.grants name = true)
      (before : r.place name = .waiting) (slots : s.slots = r.slots.take name)
      (places : s.place = Function.update r.place name .inside)
  /-- A call has ended, and its worker gives the slot back. -/
  | returned {name : String} (mover : move = .work name) (before : r.place name = .inside)
      (slots : s.slots = r.slots.release)
      (places : s.place = Function.update r.place name .outside)

variable {worker : Worker μ} {step : Step μ} {move : Move}

/-- A worker that changes its phase but not its place keeps all places. -/
theorem Handled.of_place {s : Run μ σ} (hw : r.workers.get? name = some worker) {place : Place}
    (hplace : worker.phase.place = place) (slots : s.slots = r.slots)
    (places : s.place = Function.update r.place name place) : Handled r move s := by
  rw [← hplace, ← place_of_some hw, Function.update_eq_self] at places
  exact .kept slots places

theorem handled_decide (hw : r.workers.get? name = some worker)
    (hphase : worker.phase = .deciding) (attempt : Nat) :
    Handled r move (r.decide name attempt) := by
  have hplace : worker.phase.place = .outside := by rw [hphase]; rfl
  unfold decide
  split
  · exact .of_place hw hplace rfl (place_setPhase hw rfl (.finished false))
  · next step _ =>
    split
    · exact .of_place hw hplace rfl (place_setPhase hw rfl (.finished step.status.isOk))
    · split
      · exact .of_place hw hplace (slots_interrupt r name) (place_interrupt hw rfl)
      · by_cases hdelay : r.plan.poll.baseDelay attempt = 0
        · simp only [hdelay, if_true]
          exact .of_place hw hplace rfl (place_setPhase hw rfl .yielding)
        · simp only [hdelay, if_false]
          exact .of_place hw hplace rfl (place_setPhase hw rfl (.sleeping _))

theorem handled_enqueue (hw : r.workers.get? name = some worker)
    (hplace : worker.phase.place = .outside) : Handled r move (r.enqueue name) :=
  .entered ((place_of_some hw).trans hplace) rfl (place_setPhase hw rfl .queued)

theorem place_call (hw : r.workers.get? name = some worker) (hs : r.step? name = some step) :
    (r.call name).place = Function.update r.place name .inside := by
  simp only [call, hs]
  exact place_setPhase hw rfl (.advancing _)

theorem handled_advance (provider : Provider σ) (hw : r.workers.get? name = some worker)
    (hplace : worker.phase.place = .inside) (job : Job (μ × Outcome)) :
    Handled r (.work name) (r.advance provider name job) := by
  have hinside : r.place name = .inside := (place_of_some hw).trans hplace
  cases job with
  | done value =>
    refine .returned rfl hinside ?_ (place_endCall hw (workers_setMemo r name value.1) value.2)
    exact (slots_endCall _ _ _).trans (congrArg Slots.release (slots_setMemo r name value.1))
  | ask request next =>
    rw [advance]
    generalize provider.respond r.world request = reply
    obtain ⟨world, result | message⟩ := reply
    · exact .of_place hw hplace rfl (place_setPhase hw rfl (.advancing (next result)))
    · exact .returned rfl hinside (slots_endCall _ name (.crash message))
        (place_endCall (s := { r with world }) hw rfl (.crash message))
  | pause ms next => exact .of_place hw hplace rfl (place_setPhase hw rfl (.pausing _ next))
  | callOff next => exact .of_place hw hplace rfl (place_setPhase hw rfl (.advancing next))

theorem handled_of_work? {provider : Provider σ} (hw : r.workers.get? name = some worker)
    (hs : r.step? name = some step) (h : r.work? provider name = some s) :
    Handled r (.work name) s := by
  simp only [work?, hw] at h
  cases hphase : worker.phase with
  | deciding =>
    simp only [hphase, Option.some.injEq] at h
    subst h
    exact handled_decide hw hphase worker.attempt
  | yielding =>
    have hplace : worker.phase.place = .outside := by rw [hphase]; rfl
    simp only [hphase, Option.some.injEq] at h
    subst h
    split
    · exact .of_place hw hplace (slots_interrupt r name) (place_interrupt hw rfl)
    · exact handled_enqueue hw hplace
  | sleeping wake =>
    simp only [hphase, Option.ite_none_right_eq_some, Option.some.injEq] at h
    obtain ⟨-, rfl⟩ := h
    exact handled_enqueue hw (by rw [hphase]; rfl)
  | queued =>
    simp only [hphase, Option.ite_none_right_eq_some, Option.some.injEq] at h
    obtain ⟨hgrants, rfl⟩ := h
    refine .taken rfl hgrants ((place_of_some hw).trans (by rw [hphase]; rfl)) ?_ (place_call hw hs)
    simp only [call, hs]
    rfl
  | advancing job =>
    simp only [hphase, Option.some.injEq] at h
    subst h
    exact handled_advance provider hw (by rw [hphase]; rfl) job
  | pausing wake job =>
    simp only [hphase, Option.ite_none_right_eq_some, Option.some.injEq] at h
    obtain ⟨-, rfl⟩ := h
    exact .of_place hw (by rw [hphase]; rfl) rfl (place_setPhase hw rfl (.advancing job))
  | finished ok =>
    simp only [hphase] at h
    cases h

theorem handled_of_stop? (hw : r.workers.get? name = some worker) (h : r.stop? name = some s) :
    Handled r (.stop name) s := by
  simp only [stop?, hw, Option.ite_none_right_eq_some, Bool.and_eq_true, Option.some.injEq] at h
  obtain ⟨⟨-, hlistens⟩, rfl⟩ := h
  refine .left ?_ (slots_interrupt _ name) (place_interrupt hw rfl)
  rw [place_of_some hw]
  cases hphase : worker.phase <;> simp_all [Phase.isListening, Phase.place]

/-- A worker that has ended and one that has just begun are outside, as one that is not there. -/
theorem place_settled {attempt : Nat} {ok : Bool} {walk : Walk String}
    (hw : r.workers.get? name = some ⟨attempt, .finished ok⟩) :
    (staff { r with workers := r.workers.erase name, walk }).place = r.place := by
  funext m
  rw [place, get?_staff]
  simp only [Table.get?_erase]
  by_cases hm : m = name
  · subst hm
    rw [place_of_some hw, if_pos rfl]
    split <;> rfl
  · rw [if_neg hm, place]
    cases r.workers.get? m <;> split <;> rfl

/-- Every move of a run does one of these things with the slots. -/
theorem handled_of_move? {p : Plan μ} (hr : r.Sound p) {provider : Provider σ}
    (h : r.move? provider move = some s) : Handled r move s := by
  cases move with
  | wait nanos =>
    cases h
    exact .kept rfl rfl
  | cancel =>
    cases h
    exact .kept rfl rfl
  | work name =>
    cases hw : r.workers.get? name with
    | none => simp [move?, work?, hw] at h
    | some worker =>
      obtain ⟨step, hs, -⟩ := hr.exists_step hw
      exact handled_of_work? hw hs h
  | stop name =>
    cases hw : r.workers.get? name with
    | none => simp [move?, stop?, hw] at h
    | some worker => exact handled_of_stop? hw h
  | settle name =>
    simp only [move?, settle?] at h
    split at h
    · next attempt ok hw =>
      cases h
      exact .kept rfl (place_settled hw)
    · cases h

end Run

/-! ## The ledger -/

/-- The workers that hold slots after a move. The number of free slots tells: a worker that goes on
and leaves fewer of them has taken one, and if it leaves more it has given its own back. -/
def Slots.book (before after : Slots) (move : Move) (held : List String) : List String :=
  match move with
  | .work name =>
    if after.free.getD 0 < before.free.getD 0 then name :: held
    else if before.free.getD 0 < after.free.getD 0 then held.erase name
    else held
  | _ => held

/-- The plan can come to a run, and some workers hold slots then by all that happened before. -/
inductive Plan.Ledger (p : Plan μ) (provider : Provider σ) (walker : Walker) (world : σ) :
    Run μ σ → List String → Prop where
  | opened {cancelled : Bool} {start : Run μ σ}
      (begun : p.begin walker world cancelled = .ok start) : Ledger p provider walker world start []
  | booked {run next : Run μ σ} {held : List String} {move : Move}
      (before : Ledger p provider walker world run held)
      (moved : run.move? provider move = some next) :
      Ledger p provider walker world next (run.slots.book next.slots move held)

variable {p : Plan μ} {provider : Provider σ} {walker : Walker} {world : σ} {run : Run μ σ}
  {held : List String}

theorem Plan.Ledger.reaches (h : p.Ledger provider walker world run held) :
    p.Reaches provider walker world run := by
  induction h with
  | opened begun => exact ⟨_, _, begun, .refl _⟩
  | booked _ moved ih =>
    obtain ⟨cancelled, start, begun, steps⟩ := ih
    exact ⟨cancelled, start, begun, .tail _ steps moved⟩

theorem Plan.Reaches.exists_ledger (h : p.Reaches provider walker world run) :
    ∃ held, p.Ledger provider walker world run held := by
  obtain ⟨cancelled, start, begun, steps⟩ := h
  induction steps with
  | refl => exact ⟨[], .opened begun⟩
  | tail move _ next ih =>
    obtain ⟨held, h⟩ := ih
    exact ⟨_, .booked h next⟩

namespace Run

/-- Every slot is accounted for: some are free, the others are held by the workers inside of calls.
The queue has exactly the workers that wait. -/
structure Accounted (limit : Nat) (r : Run μ σ) (held : List String) : Prop where
  counted : ∃ free, r.slots.free = some free ∧ free + held.length = limit
  nodup_held : held.Nodup
  mem_held_iff : ∀ name, name ∈ held ↔ r.place name = .inside
  nodup_waiting : r.slots.waiting.Nodup
  mem_waiting_iff : ∀ name, name ∈ r.slots.waiting ↔ r.place name = .waiting

namespace Accounted

variable {limit : Nat} {r s : Run μ σ} {held : List String} {move : Move} {name : String}

theorem kept (h : Accounted limit r held) (slots : s.slots = r.slots) (places : s.place = r.place) :
    Accounted limit s (r.slots.book s.slots move held) := by
  have hbook : r.slots.book s.slots move held = held := by
    cases move <;> simp [Slots.book, slots]
  rw [hbook]
  exact
    { counted := slots ▸ h.counted
      nodup_held := h.nodup_held
      mem_held_iff := fun m => places ▸ h.mem_held_iff m
      nodup_waiting := slots ▸ h.nodup_waiting
      mem_waiting_iff := fun m => by rw [slots, places]; exact h.mem_waiting_iff m }

/-- Who neither was inside of a call nor is does not touch the ledger. -/
theorem mem_held_iff_update (h : Accounted limit r held) {place : Place}
    (before : r.place name ≠ .inside) (after : place ≠ .inside) (m : String) :
    m ∈ held ↔ Function.update r.place name place m = .inside := by
  rw [h.mem_held_iff]
  by_cases hm : m = name
  · subst hm
    simp [before, after]
  · simp [hm]

theorem entered (h : Accounted limit r held) (before : r.place name = .outside)
    (slots : s.slots = r.slots.enter name)
    (places : s.place = Function.update r.place name .waiting) :
    Accounted limit s (r.slots.book s.slots move held) := by
  have hfree : s.slots.free = r.slots.free := by rw [slots]; rfl
  have hbook : r.slots.book s.slots move held = held := by
    cases move <;> simp [Slots.book, hfree]
  have hnew : name ∉ r.slots.waiting := by simp [h.mem_waiting_iff, before]
  rw [hbook]
  exact
    { counted := hfree ▸ h.counted
      nodup_held := h.nodup_held
      mem_held_iff := places ▸ h.mem_held_iff_update (before ▸ Place.noConfusion) Place.noConfusion
      nodup_waiting := by
        rw [slots, Slots.enter]
        refine List.nodup_append.2 ⟨h.nodup_waiting, List.nodup_singleton name, ?_⟩
        rintro m hm n hn rfl
        exact hnew (List.mem_singleton.1 hn ▸ hm)
      mem_waiting_iff := by
        intro m
        by_cases hm : m = name
        · subst hm
          simp [slots, Slots.enter, places]
        · simp [slots, Slots.enter, places, h.mem_waiting_iff, hm] }

/-- The queue without one of its workers. -/
theorem mem_waiting_erase_iff (h : Accounted limit r held) {place : Place}
    (hplace : place ≠ .waiting) (m : String) :
    m ∈ r.slots.waiting.erase name ↔ Function.update r.place name place m = .waiting := by
  rw [h.nodup_waiting.mem_erase_iff, h.mem_waiting_iff]
  by_cases hm : m = name
  · subst hm
    simp [hplace]
  · simp [hm]

theorem left (h : Accounted limit r held) (before : r.place name ≠ .inside)
    (slots : s.slots = r.slots.leave name)
    (places : s.place = Function.update r.place name .outside) :
    Accounted limit s (r.slots.book s.slots move held) := by
  have hfree : s.slots.free = r.slots.free := by rw [slots]; rfl
  have hbook : r.slots.book s.slots move held = held := by
    cases move <;> simp [Slots.book, hfree]
  rw [hbook]
  exact
    { counted := hfree ▸ h.counted
      nodup_held := h.nodup_held
      mem_held_iff := places ▸ h.mem_held_iff_update before Place.noConfusion
      nodup_waiting := slots ▸ h.nodup_waiting.erase name
      mem_waiting_iff := by
        rw [slots, places]
        exact h.mem_waiting_erase_iff Place.noConfusion }

theorem taken (h : Accounted limit r held) (mover : move = .work name)
    (granted : r.slots.grants name = true) (before : r.place name = .waiting)
    (slots : s.slots = r.slots.take name)
    (places : s.place = Function.update r.place name .inside) :
    Accounted limit s (r.slots.book s.slots move held) := by
  obtain ⟨free, hfree, hcount⟩ := h.counted
  obtain ⟨rest, rfl⟩ := Slots.exists_free_of_grants hfree granted
  have hfree' : s.slots.free = some rest := by
    rw [slots, Slots.take, hfree]
    rfl
  have hbook : r.slots.book s.slots move held = name :: held := by
    simp [Slots.book, mover, hfree, hfree']
  rw [hbook]
  exact
    { counted := by
        refine ⟨rest, hfree', ?_⟩
        rw [List.length_cons]
        omega
      nodup_held := List.nodup_cons.2 ⟨by simp [h.mem_held_iff, before], h.nodup_held⟩
      mem_held_iff := by
        intro m
        by_cases hm : m = name
        · subst hm
          simp [places]
        · simp [places, h.mem_held_iff, hm]
      nodup_waiting := slots ▸ h.nodup_waiting.erase name
      mem_waiting_iff := by
        rw [slots, places]
        exact h.mem_waiting_erase_iff Place.noConfusion }

theorem returned (h : Accounted limit r held) (mover : move = .work name)
    (before : r.place name = .inside) (slots : s.slots = r.slots.release)
    (places : s.place = Function.update r.place name .outside) :
    Accounted limit s (r.slots.book s.slots move held) := by
  obtain ⟨free, hfree, hcount⟩ := h.counted
  have hmem : name ∈ held := (h.mem_held_iff name).2 before
  have hfree' : s.slots.free = some (free + 1) := by
    rw [slots, Slots.release, hfree]
    rfl
  have hbook : r.slots.book s.slots move held = held.erase name := by
    simp [Slots.book, mover, hfree, hfree']
  rw [hbook]
  exact
    { counted := by
        have hpos := List.length_pos_of_mem hmem
        refine ⟨free + 1, hfree', ?_⟩
        rw [List.length_erase_of_mem hmem]
        omega
      nodup_held := h.nodup_held.erase name
      mem_held_iff := by
        intro m
        rw [h.nodup_held.mem_erase_iff, h.mem_held_iff]
        by_cases hm : m = name
        · subst hm
          simp [places]
        · simp [places, hm]
      nodup_waiting := slots ▸ h.nodup_waiting
      mem_waiting_iff := by
        intro m
        by_cases hm : m = name
        · subst hm
          simp [slots, Slots.release, places, h.mem_waiting_iff, before]
        · simp [slots, Slots.release, places, h.mem_waiting_iff, hm] }

/-- Every move keeps the account, with the ledger after it. -/
theorem after_move (h : Accounted limit r held) {p : Plan μ} (hr : r.Sound p)
    {provider : Provider σ} (moved : r.move? provider move = some s) :
    Accounted limit s (r.slots.book s.slots move held) := by
  cases handled_of_move? hr moved with
  | kept slots places => exact h.kept slots places
  | entered before slots places => exact h.entered before slots places
  | left before slots places => exact h.left before slots places
  | taken mover granted before slots places => exact h.taken mover granted before slots places
  | returned mover before slots places => exact h.returned mover before slots places

end Accounted

end Run

/-- When a run begins, all slots are free and nobody needs one. -/
theorem Plan.accounted_begin {limit : Nat} {positive : 0 < limit} {cancelled : Bool}
    {start : Run μ σ}
    (h : p.begin (.bounded limit positive) world cancelled = .ok start) :
    start.Accounted limit [] := by
  have hslots : start.slots = ⟨some limit, []⟩ := by
    unfold Plan.begin at h
    split at h
    · cases h
    · obtain rfl := Except.ok.inj h
      split <;> rfl
  have hplace : ∀ name, start.place name = .outside := by
    intro name
    obtain ⟨r, -, -, hworkers, -, -, -, rfl⟩ := Plan.begin_eq_ok h
    split
    · rw [Run.place, hworkers]
      rfl
    · rw [Run.place, Run.launch, Run.get?_staff, hworkers]
      split <;> rfl
  exact
    { counted := ⟨limit, by rw [hslots], rfl⟩
      nodup_held := .nil
      mem_held_iff := fun name => by simp [hplace]
      nodup_waiting := by rw [hslots]; exact .nil
      mem_waiting_iff := fun name => by simp [hslots, hplace] }

/-- At every moment of a run all slots are accounted for. -/
theorem Plan.Ledger.accounted (hp : p.graph.Sound) {limit : Nat} {positive : 0 < limit}
    (h : p.Ledger provider (.bounded limit positive) world run held) :
    run.Accounted limit held := by
  induction h with
  | opened begun => exact Plan.accounted_begin begun
  | booked before moved ih => exact ih.after_move (before.reaches.sound hp) moved

namespace Run.Accounted

variable {limit : Nat} {r : Run μ σ} {name : String}

/-- A slot is spare, held by a worker inside of a call, or set aside for one that waits. -/
theorem spare_add_length (h : Accounted limit r held) :
    r.slots.spare + (held ++ r.slots.granted).length = limit := by
  obtain ⟨free, hfree, hcount⟩ := h.counted
  have hgranted := Slots.spare_add_granted hfree
  rw [List.length_append]
  omega

theorem place_of_granted (h : Accounted limit r held) (hgranted : name ∈ r.slots.granted) :
    r.place name = .waiting :=
  (h.mem_waiting_iff name).1 (r.slots.granted_sublist.subset hgranted)

/-- Nobody has two slots. -/
theorem nodup_holders (h : Accounted limit r held) : (held ++ r.slots.granted).Nodup := by
  apply List.nodup_append'.2
  refine ⟨h.nodup_held, h.nodup_waiting.sublist r.slots.granted_sublist, fun m hheld hgranted => ?_⟩
  have hinside := (h.mem_held_iff m).1 hheld
  rw [h.place_of_granted hgranted] at hinside
  cases hinside

/-- The calls that go on are those of the workers that hold slots. -/
theorem callsInProgress_eq (h : Accounted limit r held) :
    Rehearsal.callsInProgress r = held.length := by
  apply List.Perm.length_eq
  refine (List.perm_ext_iff_of_nodup ?_ h.nodup_held).2 fun m => ?_
  · exact r.workers.nodup_keys.sublist (List.filter_sublist.map _)
  · rw [h.mem_held_iff, Rehearsal.workersIn]
    simp only [List.mem_map, List.mem_filter, Prod.exists, exists_and_right, exists_eq_right]
    constructor
    · rintro ⟨worker, hmem, hadvancing⟩
      rw [place_of_some (Table.get?_eq_some_iff.2 hmem)]
      exact Phase.place_eq_inside_iff.2 hadvancing
    · intro hinside
      have hplace : r.place m ≠ .outside := by simp [hinside]
      obtain ⟨worker, hw⟩ := exists_worker_of_place hplace
      rw [place_of_some hw] at hinside
      exact ⟨worker, Table.get?_eq_some_iff.1 hw, Phase.place_eq_inside_iff.1 hinside⟩

/-- A worker for whom a slot is set aside can take it and begin its call. -/
theorem ready_of_granted (h : Accounted limit r held) (hr : r.Sound p) (provider : Provider σ)
    (hgranted : name ∈ r.slots.granted) :
    ∃ next, r.move? provider (.work name) = some next ∧ next.place name = .inside := by
  have hwaiting := h.place_of_granted hgranted
  have hplace : r.place name ≠ .outside := by simp [hwaiting]
  obtain ⟨worker, hw⟩ := exists_worker_of_place hplace
  obtain ⟨step, hs, -⟩ := hr.exists_step hw
  have hqueued : worker.phase = .queued :=
    Phase.place_eq_waiting_iff.1 ((place_of_some hw).symm.trans hwaiting)
  refine ⟨r.call name, ?_, ?_⟩
  · simp only [move?, work?, hw, hqueued, Slots.grants_iff.2 hgranted, if_true]
  · rw [place_call hw hs, Function.update_self]

/-- A worker that waits in vain waits for another one. -/
theorem exists_holder_of_waiting (h : Accounted limit r held) (positive : 0 < limit)
    (hwaiting : r.place name = .waiting) (hnot : name ∉ r.slots.granted) :
    r.slots.spare = 0 ∧ ∃ other ≠ name, r.place other = .inside ∨ other ∈ r.slots.granted := by
  obtain ⟨free, hfree, -⟩ := h.counted
  have hspare : r.slots.spare = 0 := by
    by_contra hspare
    exact hnot (Slots.mem_granted_of_spare hfree hspare ((h.mem_waiting_iff name).2 hwaiting))
  have hlength := h.spare_add_length
  obtain ⟨other, hother⟩ := List.exists_mem_of_length_pos
    (show 0 < (held ++ r.slots.granted).length by omega)
  refine ⟨hspare, other, ?_, ?_⟩
  · rintro rfl
    rcases List.mem_append.1 hother with hheld | hgranted
    · rw [(h.mem_held_iff other).1 hheld] at hwaiting
      cases hwaiting
    · exact hnot hgranted
  · exact (List.mem_append.1 hother).imp_left (h.mem_held_iff other).1

end Run.Accounted

/-- With a bounded walker no slot is ever lost or given twice: those that are spare, those that
workers hold by all that happened so far, and those set aside for workers that wait make up the
limit. Only workers inside of calls hold slots, so there are never more calls at once than the limit
allows. A worker that waits can begin its call at once, or no slot is spare and another worker is
inside of a call or can begin one. -/
theorem Plan.slots_conserved {p : Plan μ} (hp : p.graph.Sound) {provider : Provider σ} {limit : Nat}
    {positive : 0 < limit} {world : σ} {run : Run μ σ}
    (reached : p.Reaches provider (.bounded limit positive) world run) :
    (∃ held, p.Ledger provider (.bounded limit positive) world run held) ∧
    ∀ held, p.Ledger provider (.bounded limit positive) world run held →
      run.slots.spare + (held ++ run.slots.granted).length = limit ∧
      (held ++ run.slots.granted).Nodup ∧
      (∀ name, name ∈ held ↔ run.place name = .inside) ∧
      (∀ name ∈ run.slots.granted, run.place name = .waiting) ∧
      Rehearsal.callsInProgress run = held.length ∧ held.length ≤ limit ∧
      (∀ name ∈ run.slots.granted,
        ∃ next, run.move? provider (.work name) = some next ∧ next.place name = .inside) ∧
      ∀ name, run.place name = .waiting → name ∉ run.slots.granted →
        run.slots.spare = 0 ∧
          ∃ other ≠ name, run.place other = .inside ∨ other ∈ run.slots.granted := by
  refine ⟨reached.exists_ledger, fun held hledger => ?_⟩
  have h := hledger.accounted hp
  have hlength := h.spare_add_length
  rw [List.length_append] at hlength
  exact ⟨h.spare_add_length, h.nodup_holders, h.mem_held_iff, fun _ => h.place_of_granted,
    h.callsInProgress_eq, by omega, fun _ => h.ready_of_granted (reached.sound hp) provider,
    fun _ => h.exists_holder_of_waiting positive⟩

/-! ### One slot for two -/

/-- Two steps that do not require each other. -/
def Step.rivals : List (Step Unit) :=
  [.once "first" [] (.complete none), .once "second" [] (.complete none)]

/-- The plan of the two steps. -/
def Plan.rivals (poll : PollPolicy) : Plan Unit where
  id := "run"
  description := ""
  graph :=
    ⟨.ofList
      [("first", .once "first" [] (.complete none)),
        ("second", .once "second" [] (.complete none))],
      ⟨[("first", []), ("second", [])]⟩⟩
  poll := poll

theorem Plan.ofSteps_rivals (poll : PollPolicy) :
    StepGraph.ofSteps Step.rivals = .ok (Plan.rivals poll).graph := by
  cbv

theorem Plan.plays_rivals (poll : PollPolicy) :
    ((Plan.rivals poll).plays .idle (.bounded 1 Nat.one_pos) ()
      [.work "first", .work "first", .work "first", .work "second", .work "second"]).any
      (fun run => run.place "second" = .waiting && "second" ∉ run.slots.granted) = true := by
  cbv

/-- Of two workers that share one slot, one is inside of its call while the other one waits. -/
theorem Plan.slots_conserved_rivals :
    ∃ run : Run Unit Unit, (Plan.rivals .standard).Reaches .idle (.bounded 1 Nat.one_pos) () run ∧
      run.place "second" = .waiting ∧ "second" ∉ run.slots.granted ∧ run.slots.spare = 0 ∧
      ∃ other ≠ "second", run.place other = .inside ∨ other ∈ run.slots.granted := by
  obtain ⟨run, hrun, h⟩ := (Option.any_eq_true _ _).1 (Plan.plays_rivals .standard)
  rw [Bool.and_eq_true, decide_eq_true_eq, decide_eq_true_eq] at h
  have hsound : (Plan.rivals .standard).graph.Sound :=
    (StepGraph.Built.ofSteps (Plan.ofSteps_rivals .standard)).sound
  obtain ⟨⟨held, hledger⟩, hall⟩ := Plan.slots_conserved hsound (Plan.reaches_of_plays hrun)
  obtain ⟨-, -, -, -, -, -, -, hwaits⟩ := hall held hledger
  exact ⟨run, Plan.reaches_of_plays hrun, h.1, h.2, hwaits "second" h.1 h.2⟩

end Rollout

import Rollout.Proofs.Plan.Chronicle
import Rollout.Proofs.Provider.Submissions

/-!
# What a run asks its provider

The provider is asked by the calls of the steps and by nobody else. So a rule that the calls of each
step keep to is a rule that the whole run keeps to.

* `Plan.Chronicle.exchanges_perm`: what the provider was asked is what the calls of the steps asked.
* `Orderly`: calls keep to a rule, and a request that counts is made once at most.
* `Action.AsksOnce`: each call does its part for that. `Action.Made.orderly`: so it is with any
  number of calls.
* `Plan.Chronicle.orderly`: what that says of a run whose steps make requests about themselves.
-/

/-- In a list made of lists, one for each key, the list of one key grows. -/
theorem List.flatMap_perm_of_append {α β : Type} {l : List α} (hl : l.Nodup) {a : α} (ha : a ∈ l)
    {f g : α → List β} {new : List β} (hg : g a = new ++ f a) (hne : ∀ b, b ≠ a → g b = f b) :
    (l.flatMap g).Perm (new ++ l.flatMap f) := by
  induction l with
  | nil => cases ha
  | cons b l ih =>
    obtain ⟨hb, hl⟩ := List.nodup_cons.1 hl
    rw [List.flatMap_cons, List.flatMap_cons]
    by_cases hab : b = a
    · subst hab
      have hsame : l.flatMap g = l.flatMap f :=
        congrArg List.flatten (List.map_congr_left fun c hc => hne c fun h => hb (h ▸ hc))
      rw [hg, hsame, List.append_assoc]
    · rw [hne b hab]
      have hmem : a ∈ l := (List.mem_cons.1 ha).resolve_left (Ne.symm hab)
      exact ((ih hl hmem).append_left _).trans (List.perm_append_comm_assoc _ _ _)

namespace Rollout

variable {α μ σ : Type}

namespace Run

variable {p : Plan μ} {provider : Provider σ} {r s : Run μ (Recorded σ)} {name : String}
  {first step : Step μ} {calls : List CallRecord}

/-! ## Who asks the provider -/

theorem exchanges_of_stride (turn : Stride provider.recorded r s name step) :
    s.world.exchanges = r.asked s ++ r.world.exchanges := by
  have hsame : s.world = r.world → s.world.exchanges = r.asked s ++ r.world.exchanges := fun h => by
    rw [asked_of_eq h, h, List.nil_append]
  have hasked : ∀ {request : Request} {reply : Reply request.Answer},
      provider.recorded.respond r.world request = (s.world, reply) →
        s.world.exchanges = r.asked s ++ r.world.exchanges := fun {request reply} h => by
    rw [asked_of_respond h]
    cases hinner : provider.respond r.world.inner request with
    | mk after reply' =>
      rw [Provider.respond_recorded hinner] at h
      obtain ⟨hworld, rfl⟩ := Prod.mk.inj h
      rw [← hworld]
      rfl
  cases turn with
  | rests _ _ world _ _ _ => exact hsame world
  | begins _ _ _ world _ _ => exact hsame world
  | goesOn _ _ _ world _ _ => exact hsame world
  | asks _ _ replied _ _ => exact hasked replied
  | returns _ _ world _ _ _ => exact hsame world
  | crashes _ _ replied _ _ _ => exact hasked replied

/-- What the provider is asked is written down with the call under way. -/
theorem Called.exchanges_write (h : r.Called first name calls)
    (turn : Stride provider.recorded r s name step) :
    (r.write s name calls).flatMap (·.exchanges) = r.asked s ++ calls.flatMap (·.exchanges) := by
  cases h with
  | between _ idle _ _ _ =>
    have hworld : s.world = r.world := by
      cases turn with
      | rests _ _ world _ _ _ => exact world
      | begins _ _ _ world _ _ => exact world
      | goesOn before _ _ _ _ _ | asks before _ _ _ _ | returns before _ _ _ _ _
      | crashes before _ _ _ _ _ =>
        rw [idle] at before
        cases before
    rw [asked_of_eq hworld, write, idle]
    cases s.job? name with
    | none => rfl
    | some job => rfl
  | inside _ _ _ call _ _ =>
    rw [write, call]
    cases s.job? name with
    | none => exact List.append_assoc _ _ _
    | some job => exact List.append_assoc _ _ _

/-- What the provider is asked is what the calls ask. -/
theorem Writes.exchanges_perm {before history : String → List CallRecord} (hr : r.Sound p)
    (hcalled : ∀ name first, p.graph.get? name = some first → r.Called first name (before name))
    (hbefore : r.world.exchanges.Perm
      (p.graph.dag.nodes.flatMap fun name => (before name).flatMap (·.exchanges)))
    (writes : Writes provider r before s history) :
    s.world.exchanges.Perm
      (p.graph.dag.nodes.flatMap fun name => (history name).flatMap (·.exchanges)) := by
  induction writes with
  | refl => exact hbefore
  | tail move steps next ih =>
    have hs := hr.steps steps.steps
    cases hs.acted next with
    | passed nobody _ _ _ world _ =>
      simp only [nobody, world, reduceCtorEq, if_false]
      exact ih hcalled hbefore
    | settled nobody _ after =>
      subst after
      simp only [nobody, reduceCtorEq, if_false]
      exact ih hcalled hbefore
    | @turned mover worker step moves _ found _ _ stride _ =>
      obtain ⟨first, hfirst, -⟩ := hs.action _ _ found
      have hwrite := ((hcalled mover first hfirst).writes hr hfirst steps).exchanges_write stride
      have hmem : mover ∈ p.graph.dag.nodes := by
        rw [← hs.dag, hs.graph.mem_nodes_iff]
        exact ⟨step, found⟩
      have hnodup : p.graph.dag.nodes.Nodup := hs.dag ▸ hs.graph.wellFormed.nodup_nodes
      rw [exchanges_of_stride stride]
      refine ((ih hcalled hbefore).append_left _).trans
        (List.flatMap_perm_of_append hnodup hmem ?_ fun other hother => ?_).symm
      · simp only [moves, if_true]
        exact hwrite
      · simp only [moves, Option.some.injEq, hother.symm, if_false]

end Run

namespace Plan.Chronicle

variable {p : Plan μ} {provider : Provider σ} {walker : Walker} {world : σ}
  {run : Run μ (Recorded σ)} {history : String → List CallRecord}

/-- What the provider is asked in a run is what the calls of its steps ask. -/
theorem exchanges_perm (hp : p.graph.Sound) (h : p.Chronicle provider walker world run history) :
    run.world.exchanges.Perm
      (p.graph.dag.nodes.flatMap fun name => (history name).flatMap (·.exchanges)) := by
  obtain ⟨cancelled, start, hbegin, hwrites⟩ := h
  obtain ⟨hsound, -, -, -⟩ := Plan.sound_begin hp hbegin
  have hnothing : start.world.exchanges = [] := by
    obtain ⟨r, -, -, -, hworld, -, -, rfl⟩ := Plan.begin_eq_ok hbegin
    split <;> exact congrArg Recorded.exchanges hworld
  refine hwrites.exchanges_perm hsound (fun _ _ => Plan.called_begin hp hbegin) ?_
  rw [hnothing]
  simp

end Plan.Chronicle

/-! ## Calls that keep to a rule -/

namespace Job

variable {P : List Exchange → Prop} {exchanges : List Exchange}

/-- A call ends with what has come of an attempt. If that went wrong the step has failed. -/
theorem upholds_call {attempt : ExceptT Error Job (μ × Status)}
    {settle : Except Error (μ × Status) → Job (μ × Outcome)}
    {between : μ → Status → List Exchange → Prop} {memo : μ}
    (h : attempt.run.Upholds P (AfterAttempt between) exchanges)
    (hok : ∀ memo status, settle (.ok (memo, status)) = done (memo, .settled status))
    (herror : ∀ e, settle (.error e) = done (memo, .error e.message))
    (hfailed : ∀ reason exchanges, between memo (.failed reason) exchanges) :
    (attempt.run.bind settle).Upholds P (AfterCall between memo) exchanges := by
  refine upholds_bind h (fun result exchanges hP hattempted => ?_) fun message exchanges _ _ =>
    hfailed _ exchanges
  match result with
  | .ok (memo, status) =>
    rw [hok]
    exact ⟨hP, hattempted⟩
  | .error e =>
    rw [herror]
    exact ⟨hP, hfailed _ exchanges⟩

end Job

/-- What some calls asked, call by call, keeps to a rule, and what counts was asked once at most. -/
structure Orderly (allows : List Exchange → Exchange → Prop) (counts : Exchange → Bool)
    (asked : List (List Exchange)) : Prop where
  /-- The rule can tell each exchange with all that the call has asked. -/
  allowed : ∀ exchanges ∈ asked, ∀ e ∈ exchanges, allows exchanges e
  once : asked.flatten.countP counts ≤ 1

theorem Orderly.nil (allows : List Exchange → Exchange → Prop) (counts : Exchange → Bool) :
    Orderly allows counts [] :=
  ⟨List.forall_mem_nil _, Nat.zero_le 1⟩

/-- What a call asks keeps to the rule, and no more requests count than may. -/
structure Heeds (allows : List Exchange → Exchange → Prop) (counts : Exchange → Bool) (most : Nat)
    (exchanges : List Exchange) : Prop where
  allowed : ∀ e ∈ exchanges, allows exchanges e
  count : exchanges.countP counts ≤ most

theorem Heeds.nil (allows : List Exchange → Exchange → Prop) (counts : Exchange → Bool)
    (most : Nat) : Heeds allows counts most [] :=
  ⟨List.forall_mem_nil _, Nat.zero_le most⟩

/-- A call that begins when the action is settled or not leaves it settled, or the step done, unless
nothing has counted yet. -/
def LeavesSettled (counts : Exchange → Bool) (settled : μ → Bool) (was : Bool) (memo : μ)
    (status : Status) (exchanges : List Exchange) : Prop :=
  settled memo = true ∨ status.isDone = true ∨ was = false ∧ exchanges.countP counts = 0

/-- Each call of the action keeps to the rule. One request may count, after which the action
remembers that it is settled, or leaves the step done. When it is settled nothing counts any more,
and it stays so. -/
def Action.AsksOnce (action : Action μ) (allows : List Exchange → Exchange → Prop)
    (counts : Exchange → Bool) (settled : μ → Bool) : Prop :=
  ∀ memo status, status.isDone = false → (action.advance memo status).Upholds
    (Heeds allows counts (if settled memo then 0 else 1))
    (AfterCall (LeavesSettled counts settled (settled memo)) memo) []

theorem Action.AsksOnce.mono {action : Action μ}
    {allows allows' : List Exchange → Exchange → Prop} {counts : Exchange → Bool}
    {settled : μ → Bool} (h : action.AsksOnce allows counts settled)
    (hallows : ∀ exchanges e, allows exchanges e → allows' exchanges e) :
    action.AsksOnce allows' counts settled := fun memo status hopen =>
  (h memo status hopen).mono
    (fun exchanges hheeds => ⟨fun e he => hallows exchanges e (hheeds.allowed e he), hheeds.count⟩)
    fun _ _ _ hafter => hafter

/-- So any number of calls keep to the rule, and ask what counts once at most. -/
theorem Action.Made.orderly {action : Action μ} {first : μ} {start : Status}
    {calls : List CallRecord} {allows : List Exchange → Exchange → Prop}
    {counts : Exchange → Bool} {settled : μ → Bool} (h : action.Made first start calls)
    (hcall : action.AsksOnce allows counts settled) :
    Orderly allows counts (calls.map (·.exchanges)) := by
  refine h.induction (J := fun asked memo status => Orderly allows counts asked ∧
    (settled memo = true ∨ status.isDone = true ∨ asked.flatten.countP counts = 0))
    ⟨.nil _ _, .inr (.inr rfl)⟩ (fun _ _ _ hJ => hJ.1) ?_
  rintro asked memo status ⟨hasked, hopen⟩ hdone
  have hcount : ∀ exchanges : List Exchange, (exchanges :: asked).flatten.countP counts =
      exchanges.countP counts + asked.flatten.countP counts := fun exchanges => by
    rw [List.flatten_cons, List.countP_append]
  have hrules : ∀ exchanges, Heeds allows counts (if settled memo then 0 else 1) exchanges →
      Orderly allows counts (exchanges :: asked) := by
    rintro exchanges ⟨hallowed, honce⟩
    refine ⟨List.forall_mem_cons.2 ⟨hallowed, hasked.allowed⟩, ?_⟩
    rw [hcount]
    rcases hopen with hsettled | hended | hnone
    · rw [hsettled, if_pos rfl] at honce
      have := hasked.once
      omega
    · rw [hdone] at hended
      cases hended
    · split at honce <;> omega
  refine (hcall memo status hdone).mono hrules fun result exchanges hP hQ => ?_
  have hnone : settled memo = false ∧ exchanges.countP counts = 0 →
      (exchanges :: asked).flatten.countP counts = 0 := by
    rintro ⟨hunsettled, hnone⟩
    rw [hdone, hunsettled] at hopen
    rw [hcount, hnone, (hopen.resolve_left nofun).resolve_left nofun]
  match result with
  | .ok _ => exact ⟨hrules exchanges hP, hQ.imp_right (Or.imp_right hnone)⟩
  | .error _ => exact ⟨hrules exchanges hP, hQ.imp_right (Or.imp_right hnone)⟩

/-- If each step keeps to a rule by which it asks what counts about itself only, so does the run,
and what counts is asked about each step once at most. -/
theorem Plan.Chronicle.orderly {p : Plan μ} {provider : Provider σ} {walker : Walker} {world : σ}
    {run : Run μ (Recorded σ)} {history : String → List CallRecord} (hp : p.graph.Sound)
    (h : p.Chronicle provider walker world run history)
    {allows : String → List Exchange → Exchange → Prop} {counts : String → Exchange → Bool}
    {settled : μ → Bool}
    (hcalls : ∀ name step, p.graph.get? name = some step →
      step.action.AsksOnce (allows name) (counts name) settled)
    (hown : ∀ name other exchanges e, allows name exchanges e → counts other e = true →
      other = name) :
    (∀ e ∈ run.world.exchanges, ∃ name ∈ p.graph.dag.nodes, ∃ call ∈ history name,
      e ∈ call.exchanges ∧ allows name call.exchanges e) ∧
    ∀ name, run.world.exchanges.countP (counts name) ≤ 1 := by
  have horderly : ∀ name, Orderly (allows name) (counts name)
      ((history name).map (·.exchanges)) := fun name => by
    by_cases hnone : history name = []
    · rw [hnone]
      exact .nil _ _
    · obtain ⟨step, hstep, hmade⟩ := h.exists_made hp hnone
      exact hmade.orderly (hcalls name step hstep)
  have hperm := h.exchanges_perm hp
  constructor
  · intro e he
    obtain ⟨name, hname, he⟩ := List.mem_flatMap.1 (hperm.mem_iff.1 he)
    obtain ⟨call, hcall, he⟩ := List.mem_flatMap.1 he
    exact ⟨name, hname, call, hcall, he,
      (horderly name).allowed _ (List.mem_map_of_mem hcall) e he⟩
  · intro name
    -- The calls of the other steps do not ask it.
    have hothers : ∀ other, other ≠ name → other ∈ p.graph.dag.nodes →
        ((history other).flatMap (·.exchanges)).countP (counts name) = 0 := by
      refine fun other hne _ => List.countP_eq_zero.2 fun e he hcounts => hne ?_
      obtain ⟨call, hcall, he⟩ := List.mem_flatMap.1 he
      exact (hown other name _ e
        ((horderly other).allowed _ (List.mem_map_of_mem hcall) e he) hcounts).symm
    have hown := (horderly name).once
    rw [← List.flatMap_def] at hown
    rw [hperm.countP_eq, List.countP_flatMap]
    refine (List.sum_map_eq_nsmul_single name _ hothers).trans_le ?_
    exact Nat.mul_le_mul (List.nodup_iff_count_le_one.1 hp.wellFormed.nodup_nodes name) hown

end Rollout

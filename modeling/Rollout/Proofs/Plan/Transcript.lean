import Rollout.Proofs.Plan.Contract
import Rollout.Provider.Prepared

/-!
# Calls of an action, as they went

What an action does when it is called again and again depends on the replies that it gets. Told with
these replies it is a matter of the action alone, whatever the provider.

* `CallRecord`: a call with what it asked, how it was answered, and what came of it.
* `Job.Went`: what a job asks, with the replies, on its way to what is left of it.
* `Action.Ran`: any number of calls, each of them given what the one before left.
  `Action.Made`: the last one may be under way.
* `Job.Upholds`: what is true of all that a job asks, whatever it is answered. `Job.upholds_bind`
  and the like: how such jobs are put together.
* `Action.Made.induction`: what every call keeps true, any number of calls keep true.
-/

namespace Rollout

/-- A call of an action as it went. -/
structure CallRecord where
  /-- The status it was given. -/
  given : Status
  /-- What it asked, with the replies, the last exchange first. -/
  exchanges : List Exchange := []
  /-- The status that came of it, if it has ended. -/
  result : Option Status := none

variable {μ α β : Type}

namespace Job

/-- The job gets to what is left of it with some exchanges, the last one first. -/
inductive Went (job : Job α) : List Exchange → Job α → Prop where
  | start : Went job [] job
  | ask {exchanges : List Exchange} {request : Request} {next : Except Error request.Answer → Job α}
      (before : Went job exchanges (ask request next)) (result : Except Error request.Answer) :
      Went job (⟨request, .answer result⟩ :: exchanges) (next result)
  | pause {exchanges : List Exchange} {ms : Nat} {rest : Job α}
      (before : Went job exchanges (pause ms rest)) : Went job exchanges rest
  | callOff {exchanges : List Exchange} {rest : Job α}
      (before : Went job exchanges (callOff rest)) : Went job exchanges rest

/-- A way on for what is left of the job is a way on for the job. -/
theorem Went.endsWith {job rest : Job α} {exchanges : List Exchange} (h : job.Went exchanges rest)
    {value : α} (hends : rest.EndsWith value) : job.EndsWith value := by
  induction h with
  | start => exact hends
  | ask before result ih => exact ih (.ask result hends)
  | pause before ih => exact ih (.pause hends)
  | callOff before ih => exact ih (.callOff hends)

/-- The job can go that way. -/
theorem Went.exists_done {job rest : Job α} {exchanges : List Exchange}
    (h : job.Went exchanges rest) {value : α} (hends : rest.EndsWith value) :
    ∃ exchanges, job.Went exchanges (done value) := by
  induction hends generalizing exchanges with
  | done value => exact ⟨exchanges, h⟩
  | ask answer rest ih => exact ih (.ask h answer)
  | pause rest ih => exact ih (.pause h)
  | callOff rest ih => exact ih (.callOff h)

end Job

namespace Action

variable {action : Action μ} {first memo : μ} {start status : Status} {calls : List CallRecord}

/-- The action was called some times, the last call first, beginning with a memo and a status, and
these are what it has left. Each call is given what the one before has left, which is the end unless
it is not done. A call over which the provider breaks down leaves the memo as it was. -/
inductive Ran (action : Action μ) (first : μ) (start : Status) :
    List CallRecord → μ → Status → Prop where
  | none : Ran action first start [] first start
  | returned {calls : List CallRecord} {memo memo' : μ} {status : Status}
      {exchanges : List Exchange} {outcome : Outcome}
      (before : Ran action first start calls memo status) (isOpen : status.isDone = false)
      (went : (action.advance memo status).Went exchanges (.done (memo', outcome))) :
      Ran action first start (⟨status, exchanges, some outcome.status⟩ :: calls) memo'
        outcome.status
  | crashed {calls : List CallRecord} {memo : μ} {status : Status} {exchanges : List Exchange}
      {request : Request} {next : Except Error request.Answer → Job (μ × Outcome)}
      (before : Ran action first start calls memo status) (isOpen : status.isDone = false)
      (went : (action.advance memo status).Went exchanges (.ask request next))
      (message : Option String) :
      Ran action first start
        (⟨status, ⟨request, .crash message⟩ :: exchanges, some (Outcome.crash message).status⟩ ::
          calls) memo (Outcome.crash message).status

/-- The action was called some times, and the last call may be under way. -/
inductive Made (action : Action μ) (first : μ) (start : Status) : List CallRecord → Prop where
  | between {calls : List CallRecord} {memo : μ} {status : Status}
      (ran : Ran action first start calls memo status) : Made action first start calls
  | inside {calls : List CallRecord} {memo : μ} {status : Status} {exchanges : List Exchange}
      {rest : Job (μ × Outcome)} (ran : Ran action first start calls memo status)
      (isOpen : status.isDone = false) (went : (action.advance memo status).Went exchanges rest) :
      Made action first start (⟨status, exchanges, none⟩ :: calls)

namespace Ran

/-- Call by call, what a call was given is what the one before left. -/
theorem results (h : action.Ran first start calls memo status) :
    some start :: calls.reverse.map (·.result) =
      calls.reverse.map (fun call => some call.given) ++ [some status] := by
  induction h with
  | none => rfl
  | returned _ _ _ ih =>
    rw [List.reverse_cons, List.map_append, List.map_append, ← List.cons_append, ih]
    rfl
  | crashed _ _ _ _ ih =>
    rw [List.reverse_cons, List.map_append, List.map_append, ← List.cons_append, ih]
    rfl

/-- No call was given a status that is done. -/
theorem given_isOpen (h : action.Ran first start calls memo status) :
    ∀ call ∈ calls, call.given.isDone = false := by
  induction h with
  | none => exact nofun
  | returned _ isOpen _ ih => exact List.forall_mem_cons.2 ⟨isOpen, ih⟩
  | crashed _ isOpen _ _ ih => exact List.forall_mem_cons.2 ⟨isOpen, ih⟩

/-- From a status that is done on, nothing is called. -/
theorem eq_nil_of_isDone (h : action.Ran first start calls memo status)
    (hdone : start.isDone = true) : calls = [] ∧ status = start := by
  induction h with
  | none => exact ⟨rfl, rfl⟩
  | returned _ isOpen _ ih =>
    rw [ih.2, hdone] at isOpen
    cases isOpen
  | crashed _ isOpen _ _ ih =>
    rw [ih.2, hdone] at isOpen
    cases isOpen

end Ran

end Action

/-! ## What jobs ask, whatever they are answered -/

namespace Job

variable {P P' : List Exchange → Prop} {Q Q' : Except (Option String) α → List Exchange → Prop}
  {exchanges : List Exchange}

/-- Whatever the job is answered, after some exchanges, `P` is true of all the exchanges at any
time, and `Q` of the end, a value or a crash of the provider, and of the exchanges then. -/
def Upholds (P : List Exchange → Prop) (Q : Except (Option String) α → List Exchange → Prop) :
    Job α → List Exchange → Prop
  | done value, exchanges => P exchanges ∧ Q (.ok value) exchanges
  | ask request next, exchanges =>
    P exchanges ∧
      (∀ message, P (⟨request, .crash message⟩ :: exchanges) ∧
        Q (.error message) (⟨request, .crash message⟩ :: exchanges)) ∧
      ∀ result, (next result).Upholds P Q (⟨request, .answer result⟩ :: exchanges)
  | pause _ next, exchanges => next.Upholds P Q exchanges
  | callOff next, exchanges => next.Upholds P Q exchanges

theorem Upholds.holds {job : Job α} (h : job.Upholds P Q exchanges) : P exchanges := by
  induction job with
  | done value => exact h.1
  | ask request next _ => exact h.1
  | pause ms job ih => exact ih h
  | callOff job ih => exact ih h

theorem Upholds.mono {job : Job α} (h : job.Upholds P Q exchanges)
    (hP : ∀ exchanges, P exchanges → P' exchanges)
    (hQ : ∀ result exchanges, P exchanges → Q result exchanges → Q' result exchanges) :
    job.Upholds P' Q' exchanges := by
  induction job generalizing exchanges with
  | done value => exact ⟨hP _ h.1, hQ _ _ h.1 h.2⟩
  | ask request next ih =>
    refine ⟨hP _ h.1, fun message => ?_, fun result => ih result (h.2.2 result)⟩
    obtain ⟨hcrash, hend⟩ := h.2.1 message
    exact ⟨hP _ hcrash, hQ _ _ hcrash hend⟩
  | pause ms job ih => exact ih h
  | callOff job ih => exact ih h

/-- So it is on the way. -/
theorem Upholds.went {job rest : Job α} (h : job.Upholds P Q []) (hwent : job.Went exchanges rest) :
    rest.Upholds P Q exchanges := by
  induction hwent with
  | start => exact h
  | ask _ result ih => exact ih.2.2 result
  | pause _ ih => exact ih
  | callOff _ ih => exact ih

/-- What is true of the end of the first job, a crash excepted, lets the second one go on. -/
theorem upholds_bind {job : Job α} {f : α → Job β}
    {last : Except (Option String) β → List Exchange → Prop} (h : job.Upholds P Q exchanges)
    (hok : ∀ value exchanges, P exchanges → Q (.ok value) exchanges →
      (f value).Upholds P last exchanges)
    (herror : ∀ message exchanges, P exchanges → Q (.error message) exchanges →
      last (.error message) exchanges) :
    (job.bind f).Upholds P last exchanges := by
  induction job generalizing exchanges with
  | done value => exact hok value _ h.1 h.2
  | ask request next ih =>
    refine ⟨h.1, fun message => ?_, fun result => ih result (h.2.2 result)⟩
    obtain ⟨hP, hQ⟩ := h.2.1 message
    exact ⟨hP, herror message _ hP hQ⟩
  | pause ms job ih => exact ih h
  | callOff job ih => exact ih h

/-- A request, and what comes after. -/
theorem upholds_request_bind {request : Request} {f : request.Answer → ExceptT Error Job β}
    {last : Except (Option String) (Except Error β) → List Exchange → Prop} (h : P exchanges)
    (hreply : ∀ reply, P (⟨request, reply⟩ :: exchanges))
    (hok : ∀ value, (f value).run.Upholds P last (⟨request, .answer (.ok value)⟩ :: exchanges))
    (hfail : ∀ e, last (.ok (.error e)) (⟨request, .answer (.error e)⟩ :: exchanges))
    (hcrash : ∀ message, last (.error message) (⟨request, .crash message⟩ :: exchanges)) :
    (Job.request request >>= f).run.Upholds P last exchanges := by
  refine ⟨h, fun message => ⟨hreply _, hcrash message⟩, fun result => ?_⟩
  cases result with
  | ok value => exact hok value
  | error e => exact ⟨hreply _, hfail e⟩

/-- A job that goes on only if the one before did not fail. -/
theorem upholds_bind_run {job : ExceptT Error Job α} {f : α → ExceptT Error Job β}
    {mid : Except (Option String) (Except Error α) → List Exchange → Prop}
    {last : Except (Option String) (Except Error β) → List Exchange → Prop}
    (h : job.run.Upholds P mid exchanges)
    (hok : ∀ value exchanges, P exchanges → mid (.ok (.ok value)) exchanges →
      (f value).run.Upholds P last exchanges)
    (hfail : ∀ e exchanges, P exchanges → mid (.ok (.error e)) exchanges →
      last (.ok (.error e)) exchanges)
    (herror : ∀ message exchanges, P exchanges → mid (.error message) exchanges →
      last (.error message) exchanges) :
    (job >>= f).run.Upholds P last exchanges := by
  refine upholds_bind h (fun result exchanges hP hmid => ?_) herror
  cases result with
  | ok value => exact hok value exchanges hP hmid
  | error e => exact ⟨hP, hfail e exchanges hP hmid⟩

end Job

/-- What each call leaves true, and keeps true while it is under way, is true of any number of
calls. -/
theorem Action.Made.induction {action : Action μ} {first : μ} {start : Status}
    {calls : List CallRecord} {P : List (List Exchange) → Prop}
    {J : List (List Exchange) → μ → Status → Prop} (h : action.Made first start calls)
    (hstart : J [] first start) (hbetween : ∀ asked memo status, J asked memo status → P asked)
    (hcall : ∀ asked memo status, J asked memo status → status.isDone = false →
      (action.advance memo status).Upholds (fun exchanges => P (exchanges :: asked))
        (AfterCall (fun memo status exchanges => J (exchanges :: asked) memo status) memo) []) :
    P (calls.map (·.exchanges)) := by
  have hran : ∀ {calls memo status}, action.Ran first start calls memo status →
      J (calls.map (·.exchanges)) memo status := by
    intro calls memo status hran
    induction hran with
    | none => exact hstart
    | returned _ isOpen went ih => exact ((hcall _ _ _ ih isOpen).went went).2
    | crashed _ isOpen went message ih => exact (((hcall _ _ _ ih isOpen).went went).2.1 message).2
  cases h with
  | between ran => exact hbetween _ _ _ (hran ran)
  | inside ran isOpen went => exact ((hcall _ _ _ (hran ran) isOpen).went went).holds

end Rollout

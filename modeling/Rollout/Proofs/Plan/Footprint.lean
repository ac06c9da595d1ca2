import Rollout.Plan.Action
import Rollout.Plan.Job
import Rollout.Proofs.Provider.Locality

/-!
# What a job has to do with

A job that keeps to one stack asks about that stack only, and of some others it reads the outputs.
What comes of it is a matter of these stacks.

* `Job.KeepsTo`: the job keeps to a stack. `keepsTo_bind` and the like: how such jobs are put
  together.
* `Simulator.Alike`: two simulators agree about the stacks a job has to do with.
* `Job.KeepsTo.perform_alike` and `Iteration.calls_alike`: the job, or any number of calls of an
  action, comes out the same in both.
-/

namespace Rollout

/-- The request is about one stack, or asks for the outputs of another one that may be read. -/
def Request.KeepsTo (own : String) (mayRead : String → Prop) (request : Request) : Prop :=
  request.fqn = own ∨ ∃ name, mayRead name ∧ request = .outputs name

namespace Job

variable {α β : Type} {own : String} {mayRead : String → Prop}

/-- Whatever it is answered, the job asks about one stack only, and for the outputs of others that
may be read. -/
def KeepsTo (own : String) (mayRead : String → Prop) (job : Job α) : Prop :=
  ∀ request, job.Asks request → request.KeepsTo own mayRead

theorem keepsTo_done (value : α) : (done value).KeepsTo own mayRead := nofun

namespace KeepsTo

theorem of_ask {request : Request} {next : Except Error request.Answer → Job α}
    (h : (ask request next).KeepsTo own mayRead) :
    request.KeepsTo own mayRead ∧ ∀ answer, (next answer).KeepsTo own mayRead :=
  ⟨h request .now, fun answer other hother => h other (.later answer hother)⟩

theorem of_pause {ms : Nat} {job : Job α} (h : (pause ms job).KeepsTo own mayRead) :
    job.KeepsTo own mayRead :=
  fun request hrequest => h request (.pause hrequest)

theorem of_callOff {job : Job α} (h : (callOff job).KeepsTo own mayRead) :
    job.KeepsTo own mayRead :=
  fun request hrequest => h request (.callOff hrequest)

/-- A job that keeps to a stack does so when it may read more. -/
theorem mono {job : Job α} {mayRead' : String → Prop} (h : job.KeepsTo own mayRead)
    (hmore : ∀ name, mayRead name → mayRead' name) : job.KeepsTo own mayRead' :=
  fun request hrequest => (h request hrequest).imp_right fun ⟨name, hname, hreads⟩ =>
    ⟨name, hmore name hname, hreads⟩

end KeepsTo

theorem keepsTo_ask {request : Request} {next : Except Error request.Answer → Job α}
    (h : request.KeepsTo own mayRead) (hnext : ∀ answer, (next answer).KeepsTo own mayRead) :
    (ask request next).KeepsTo own mayRead := by
  intro other hother
  cases hother with
  | now => exact h
  | later answer rest => exact hnext answer other rest

theorem keepsTo_bind {job : Job α} {f : α → Job β} (h : job.KeepsTo own mayRead)
    (hf : ∀ a, (f a).KeepsTo own mayRead) : (job.bind f).KeepsTo own mayRead := by
  induction job with
  | done value => exact hf value
  | ask request next ih => exact keepsTo_ask h.of_ask.1 fun answer => ih answer (h.of_ask.2 answer)
  | pause ms job ih =>
    intro request hrequest
    cases hrequest with
    | pause rest => exact ih h.of_pause request rest
  | callOff job ih =>
    intro request hrequest
    cases hrequest with
    | callOff rest => exact ih h.of_callOff request rest

/-! ### Jobs that may fail -/

/-- What is true of jobs that end at once, and of two jobs in a row if it is true of both, is true
of one job for each member of a list. -/
theorem mapM_induction {P : {γ : Type} → ExceptT Error Job γ → Prop}
    (hpure : ∀ {γ : Type} (c : γ), P (pure c : ExceptT Error Job γ))
    (hbind : ∀ {γ δ : Type} {job : ExceptT Error Job γ} {f : γ → ExceptT Error Job δ},
      P job → (∀ c, P (f c)) → P (job >>= f))
    {f : α → ExceptT Error Job β} {l : List α} (h : ∀ a ∈ l, P (f a)) : P (l.mapM f) := by
  have key : ∀ (l : List α) (done : List β), (∀ a ∈ l, P (f a)) →
      P (List.mapM.loop f l done) := by
    intro l
    induction l with
    | nil => exact fun done _ => hpure _
    | cons a l ih =>
      exact fun done h => hbind (h a List.mem_cons_self) fun b =>
        ih (b :: done) fun a' ha' => h a' (List.mem_cons_of_mem _ ha')
  exact key l [] h

/-- The request and nothing else. -/
theorem keepsTo_request {request : Request} (h : request.KeepsTo own mayRead) :
    (Job.request request).run.KeepsTo own mayRead :=
  keepsTo_ask h fun answer => keepsTo_done answer

/-- A job that goes on only if the one before did not fail. -/
theorem keepsTo_bind_run {job : ExceptT Error Job α} {f : α → ExceptT Error Job β}
    (h : job.run.KeepsTo own mayRead) (hf : ∀ a, (f a).run.KeepsTo own mayRead) :
    (job >>= f).run.KeepsTo own mayRead := by
  refine keepsTo_bind h fun result => ?_
  cases result with
  | ok value => exact hf value
  | error e => exact keepsTo_done _

/-- A job that goes on with a value, if there is one. -/
theorem keepsTo_mk_bind {x : Except Error α} {f : α → ExceptT Error Job β}
    (h : ∀ a, x = .ok a → (f a).run.KeepsTo own mayRead) :
    (ExceptT.mk (pure x) >>= f).run.KeepsTo own mayRead := by
  cases x with
  | ok value => exact h value rfl
  | error e => exact keepsTo_done _

/-- One such job for each member of a list. -/
theorem keepsTo_mapM_run {f : α → ExceptT Error Job β} {l : List α}
    (h : ∀ a ∈ l, (f a).run.KeepsTo own mayRead) : (l.mapM f).run.KeepsTo own mayRead :=
  mapM_induction (P := fun {_} job => job.run.KeepsTo own mayRead) (fun _ => keepsTo_done _)
    keepsTo_bind_run h

end Job

/-! ## Simulators that agree about the stacks of a job -/

/-- Two simulators agree about a stack and about those that may be read, and they have logged the
same calls. -/
structure Simulator.Alike (own : String) (mayRead : String → Prop) (s t : Simulator) : Prop where
  own : AgreeAt own s t
  read : ∀ name, mayRead name → AgreeAt name s t
  calls : s.calls = t.calls

namespace Simulator.Alike

variable {own : String} {mayRead : String → Prop} {s t : Simulator}

theorem agreeAt (h : Alike own mayRead s t) {request : Request}
    (hr : request.KeepsTo own mayRead) : AgreeAt request.fqn s t := by
  rcases hr with hown | ⟨name, hname, rfl⟩
  · exact hown ▸ h.own
  · exact h.read name hname

/-- A request of the job is answered in the same way, and they are alike after it. -/
theorem respond (h : Alike own mayRead s t) {request : Request}
    (hr : request.KeepsTo own mayRead) :
    (Provider.simulated.respond s request).2 = (Provider.simulated.respond t request).2 ∧
      Alike own mayRead (Provider.simulated.respond s request).1
        (Provider.simulated.respond t request).1 := by
  have hagree := h.agreeAt hr
  refine ⟨respond_reply hagree, respond_agreeAt h.own hagree,
    fun name hname => respond_agreeAt (h.read name hname) hagree, ?_⟩
  rw [calls_respond, calls_respond, h.calls]

end Simulator.Alike

/-- A job that keeps to a stack comes out the same wherever as much is known of the stacks it has to
do with. -/
theorem Job.KeepsTo.perform_alike {α : Type} {own : String} {mayRead : String → Prop}
    {job : Job α} (hjob : job.KeepsTo own mayRead) {s t : Simulator}
    (h : Simulator.Alike own mayRead s t) :
    (job.perform .simulated s).2 = (job.perform .simulated t).2 ∧
      Simulator.Alike own mayRead (job.perform .simulated s).1 (job.perform .simulated t).1 := by
  induction job generalizing s t with
  | done value => exact ⟨rfl, h⟩
  | ask request next ih =>
    obtain ⟨hrequest, hnext⟩ := hjob.of_ask
    obtain ⟨hreply, hafter⟩ := h.respond hrequest
    rw [perform, perform]
    generalize Provider.simulated.respond s request = first at hreply hafter
    generalize Provider.simulated.respond t request = second at hreply hafter
    obtain ⟨world, reply⟩ := first
    obtain ⟨world', reply'⟩ := second
    obtain rfl : reply = reply' := hreply
    cases reply with
    | answer result => exact ih result (hnext result) hafter
    | crash message => exact ⟨rfl, hafter⟩
  | pause ms job ih => exact ih hjob.of_pause h
  | callOff job ih => exact ih hjob.of_callOff h

namespace Iteration

variable {μ : Type} {own : String} {mayRead : String → Prop} {action : Action μ}

/-- Two iterations that differ at most in what is known of stacks the action has nothing to do
with. -/
structure Alike (own : String) (mayRead : String → Prop) (i j : Iteration μ Simulator) : Prop where
  memo : i.memo = j.memo
  status : i.status = j.status
  world : Simulator.Alike own mayRead i.world j.world

theorem call_alike (hkeeps : ∀ memo status, (action.advance memo status).KeepsTo own mayRead)
    {i j : Iteration μ Simulator} (h : Alike own mayRead i j) :
    Alike own mayRead (i.call .simulated action) (j.call .simulated action) := by
  obtain ⟨hresult, hworld⟩ := (hkeeps j.memo j.status).perform_alike h.world
  rw [call, call, h.memo, h.status]
  generalize (action.advance j.memo j.status).perform .simulated i.world = first at hresult hworld
  generalize (action.advance j.memo j.status).perform .simulated j.world = second at hresult hworld
  obtain ⟨world, result⟩ := first
  obtain ⟨world', result'⟩ := second
  obtain rfl : result = result' := hresult
  cases result with
  | ok value => exact ⟨rfl, rfl, hworld⟩
  | error message => exact ⟨rfl, rfl, hworld⟩

/-- So are any numbers of calls. -/
theorem calls_alike (hkeeps : ∀ memo status, (action.advance memo status).KeepsTo own mayRead)
    {i j : Iteration μ Simulator} (h : Alike own mayRead i j) (n : Nat) :
    Alike own mayRead (calls .simulated action n i) (calls .simulated action n j) := by
  induction n with
  | zero => exact h
  | succ n ih => exact call_alike hkeeps ih

end Iteration

end Rollout

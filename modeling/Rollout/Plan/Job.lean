import Rollout.Provider.Basic

/-!
# Jobs

A job is a piece of work told move by move: it asks a provider, waits, calls the whole run off, or
is done. Told like this it can be cut between any two moves, and other jobs can go on in between.

* `Job.bind`: one job after another, so that jobs are written in `do` notation.
* `Job.perform`: a job done in one go, in the world of a provider.
* `Job.Asks` and `Job.EndsWith`: some answers lead the job to a request, or to a value. A job is told
  without its answers, so what it does can be said for all providers at once.
* `Job.IsSecluded`: the job neither asks anything nor calls the run off.
-/

namespace Rollout

/-- A piece of work that ends with a value. -/
inductive Job (α : Type) where
  /-- Nothing is left to do. -/
  | done (value : α)
  /-- Asks the provider and goes on with its answer. -/
  | ask (request : Request) (next : Except Error request.Answer → Job α)
  /-- Waits for some milliseconds. -/
  | pause (ms : Nat) (next : Job α)
  /-- Calls off the run that the job is part of. -/
  | callOff (next : Job α)

namespace Job

variable {α β : Type}

/-- One job, then the job that its value asks for. -/
def bind : Job α → (α → Job β) → Job β
  | done value, f => f value
  | ask request next, f => ask request fun answer => bind (next answer) f
  | pause ms next, f => pause ms (bind next f)
  | callOff next, f => callOff (bind next f)

instance : Monad Job where
  pure := done
  bind := bind

theorem bind_done (job : Job α) : job.bind done = job := by
  induction job with
  | done _ => rfl
  | ask _ _ ih => simp [bind, ih]
  | pause _ _ ih => simp [bind, ih]
  | callOff _ ih => simp [bind, ih]

theorem bind_assoc {γ : Type} (job : Job α) (f : α → Job β) (g : β → Job γ) :
    (job.bind f).bind g = job.bind fun a => (f a).bind g := by
  induction job with
  | done _ => rfl
  | ask _ _ ih => simp [bind, ih]
  | pause _ _ ih => simp [bind, ih]
  | callOff _ ih => simp [bind, ih]

/-- The answer to a request. -/
def request (r : Request) : ExceptT Error Job r.Answer := ExceptT.mk (ask r done)

/-- How a job ends in a world: with its value, or with the crash of the provider. -/
def perform {σ : Type} (provider : Provider σ) : Job α → σ → σ × Except (Option String) α
  | done value, world => (world, .ok value)
  | ask r next, world =>
    match provider.respond world r with
    | (world, .answer result) => (next result).perform provider world
    | (world, .crash message) => (world, .error message)
  | pause _ next, world => next.perform provider world
  | callOff next, world => next.perform provider world

/-! ## What a job can do -/

/-- Some answers lead the job to a request. -/
inductive Asks : Job α → Request → Prop where
  | now {r : Request} {next : Except Error r.Answer → Job α} : Asks (ask r next) r
  | later {r s : Request} {next : Except Error r.Answer → Job α} (answer : Except Error r.Answer)
      (rest : Asks (next answer) s) : Asks (ask r next) s
  | pause {ms : Nat} {job : Job α} {r : Request} (rest : Asks job r) : Asks (pause ms job) r
  | callOff {job : Job α} {r : Request} (rest : Asks job r) : Asks (callOff job) r

/-- Some answers lead the job to a value. -/
inductive EndsWith : Job α → α → Prop where
  | done (value : α) : EndsWith (done value) value
  | ask {r : Request} {next : Except Error r.Answer → Job α} {value : α}
      (answer : Except Error r.Answer) (rest : EndsWith (next answer) value) :
      EndsWith (ask r next) value
  | pause {ms : Nat} {job : Job α} {value : α} (rest : EndsWith job value) :
      EndsWith (pause ms job) value
  | callOff {job : Job α} {value : α} (rest : EndsWith job value) : EndsWith (callOff job) value

/-- The job neither asks anything nor calls the run off: it depends on nothing else and nothing else
depends on it. -/
inductive IsSecluded : Job α → Prop where
  | done (value : α) : IsSecluded (done value)
  | pause {ms : Nat} {job : Job α} (rest : IsSecluded job) : IsSecluded (pause ms job)

end Job

end Rollout

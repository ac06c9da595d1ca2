import Rollout.Provider.Basic

/-!
# Providers in front of others

* `Provider.recorded`: a provider that passes every request on and notes it with its reply.
* `Provider.prepared`: one that gives prepared answers to the next requests of a kind for a stack
  and passes all other requests on.
-/

namespace Rollout

/-! ## Records -/

/-- A request with its reply. -/
structure Exchange where
  /-- The request. -/
  request : Request
  /-- The reply. -/
  reply : Reply request.Answer

/-- The memory of a provider with a record of what it was asked. -/
structure Recorded (σ : Type) where
  /-- The memory of the provider behind. -/
  inner : σ
  /-- The exchanges so far, the last one first. -/
  exchanges : List Exchange := []

/-- Passes every request on, and notes it with its reply. -/
def Provider.recorded {σ : Type} (provider : Provider σ) : Provider (Recorded σ) where
  respond s r :=
    let (inner, reply) := provider.respond s.inner r
    (⟨inner, ⟨r, reply⟩ :: s.exchanges⟩, reply)

/-! ## Prepared answers -/

/-- An answer prepared for the next request of a kind for a stack. -/
structure Preparation where
  /-- The kind of the request. -/
  operation : Operation
  /-- The stack. -/
  fqn : String
  /-- The answer. -/
  answer : (r : Request) → Except Error r.Answer

/-- The memory of a provider with prepared answers still to be given. -/
structure Prepared (σ : Type) where
  /-- The memory of the provider behind. -/
  inner : σ
  /-- The answers, in the order in which they will be given. -/
  preparations : List Preparation := []

/-- The first preparation for a request, and the others. -/
def Preparation.take? (r : Request) : List Preparation → Option (Preparation × List Preparation)
  | [] => none
  | p :: rest =>
    if p.operation = r.operation ∧ p.fqn = r.fqn then some (p, rest)
    else (take? r rest).map fun (found, others) => (found, p :: others)

/-- Gives prepared answers as long as there are any. -/
def Provider.prepared {σ : Type} (provider : Provider σ) : Provider (Prepared σ) where
  respond s r :=
    match Preparation.take? r s.preparations with
    | some (p, rest) => ({ s with preparations := rest }, .answer (p.answer r))
    | none =>
      let (inner, reply) := provider.respond s.inner r
      ({ s with inner }, reply)

end Rollout

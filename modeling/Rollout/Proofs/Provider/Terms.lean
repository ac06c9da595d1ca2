import Rollout.Proofs.Plan.Apart
import Rollout.Proofs.Plan.Contract
import Rollout.Proofs.Plan.DependencyOrder

/-!
# Steps that keep to a stack of their own

The terms on which steps share a simulated provider when each of them asks about one stack only, and
for outputs of others.

* `Simulator.terms`: such terms, with the stacks whose records a step relies on.
* `Run.Keeps.worker_of_call`: what is asked about a stack is asked by the step of its name.
-/

namespace Rollout

/-- A step asks about its own stack, or for outputs of others, and relies on the records of some
stacks staying as they are. -/
def Simulator.terms (own : String) (kept : String → Prop) : Terms Provider.simulated where
  rely s t := ∀ fqn, kept fqn → t.records.get? fqn = s.records.get? fqn
  refl _ _ _ := rfl
  trans h h' fqn hfqn := (h' fqn hfqn).trans (h fqn hfqn)
  asks r := r.KeepsTo own fun _ => True

/-- What another step asks leaves the records of all other stacks as they are. -/
theorem Simulator.rely_terms {own other : String} {kept kept' : String → Prop} {r : Request}
    (h : (terms other kept').asks r) (hother : ∀ fqn, kept fqn → fqn ≠ other) (s : Simulator) :
    (terms own kept).rely s (Provider.simulated.respond s r).1 :=
  fun fqn hfqn => (respond_of_keepsTo h (hother fqn hfqn) s).record

/-- On such terms only the worker of a step asks about the stack of its name, outputs excepted. -/
theorem Run.Keeps.worker_of_call {μ σ : Type} {p : Plan μ} {provider : Provider σ}
    {c : Contract p provider} {r s : Run μ σ} (h : r.Keeps c) (hr : r.Sound p)
    (log : σ → List (Operation × String))
    (hlog : ∀ world request,
      log (provider.respond world request).1 = (request.operation, request.fqn) :: log world)
    (hkeeps : ∀ name request, (c.terms name).asks request → request.KeepsTo name fun _ => True)
    {move : Move} (next : r.move? provider move = some s) {operation : Operation} {fqn : String}
    (called : log s.world = (operation, fqn) :: log r.world)
    (hoperation : operation ≠ .getOutputs) : ∃ worker, r.workers.get? fqn = some worker := by
  rcases h.asker hr next with hsame | ⟨name, worker, request, hworker, hasks, hworld⟩
  · rw [hsame] at called
    exact absurd called.symm (List.cons_ne_self _ _)
  rw [hworld, hlog, List.cons.injEq, Prod.mk.injEq] at called
  obtain ⟨⟨rfl, rfl⟩, -⟩ := called
  rcases hkeeps name request hasks with hown | ⟨_, -, rfl⟩
  · exact ⟨worker, hown ▸ hworker⟩
  · exact absurd rfl hoperation

end Rollout

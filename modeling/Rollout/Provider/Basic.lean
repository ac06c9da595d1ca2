import Rollout.Blueprint.Basic
import Rollout.Error
import Rollout.Json.Basic
import Rollout.Stack.State

/-!
# Providers

A provider creates, updates and destroys stacks. Each request is answered at once; whether a
submitted operation is over shows when the stack is described again.

* `Deployment`: a stack as it is at its provider. `Deployment.ofJson?`: reads one, as an object or
  as the array of its fields.
* `Request`: the five requests. `Request.Answer`: what a request is answered with.
* `Reply`: an answer, an error, or a crash of the provider.
* `Provider`: how requests are answered in a world of some type.
* `Operation`: the kind of a request. It is what a log of calls shows, and what can be made to fail.
-/

namespace Rollout

/-! ## What a provider reports -/

/-- A stack at its provider. -/
@[ext]
structure Deployment where
  /-- The name at the provider. -/
  fqn : String
  /-- Where the stack is in its life. -/
  state : StackState
  /-- The hash of the template that was submitted last. -/
  templateHash : Option String
  /-- The outputs of the stack. -/
  outputs : Table String
  deriving DecidableEq, Inhabited

namespace Deployment

/-- A text, or none for `null`. -/
def hash? : Json → Option (Option String)
  | .null => some none
  | .str s => some (some s)
  | _ => none

/-- A deployment by its fields. -/
def ofFields? (fqn state hash outputs : Json) : Option Deployment := do
  pure ⟨← fqn.text?, ← StackState.ofJson? state, ← hash? hash, ← outputs.textTable?⟩

/-- Reads a deployment. The outputs may be left out, and in an object the hash too. -/
def ofJson? (value : Json) : Option Deployment :=
  match value with
  | .arr [fqn, state, hash] => ofFields? fqn state hash (.obj [])
  | .arr [fqn, state, hash, outputs] => ofFields? fqn state hash outputs
  | .obj _ => do
    ofFields? (← value.field? "fqn") (← value.field? "state")
      ((value.field? "template_hash").getD .null) ((value.field? "outputs").getD (.obj []))
  | _ => none

/-- A deployment as an object. -/
def toJson (d : Deployment) : Json :=
  .obj [("fqn", .str d.fqn), ("state", d.state.toJson),
    ("template_hash", Json.ofOption .str d.templateHash),
    ("outputs", Json.ofTextTable d.outputs)]

end Deployment

/-! ## Requests and replies -/

/-- A stack as it is submitted. -/
structure Submission where
  /-- The name at the provider. -/
  fqn : String
  /-- The template. -/
  template : RenderedTemplate
  /-- The tags of the stack. -/
  tags : Table String
  deriving DecidableEq

/-- What came of an update. -/
inductive UpdateOutcome where
  /-- The update runs. -/
  | submitted
  /-- The template is the one already deployed. -/
  | noChange
  deriving DecidableEq, Repr, Inhabited

/-- What a provider can be asked. -/
inductive Request where
  /-- The stack as it is, if there is one. -/
  | describe (fqn : String)
  | create (submission : Submission)
  | update (submission : Submission)
  | destroy (fqn : String)
  | outputs (fqn : String)
  deriving DecidableEq

namespace Request

/-- The type of the answers to a request. -/
def Answer : Request → Type
  | describe _ => Option Deployment
  | create _ => Unit
  | update _ => UpdateOutcome
  | destroy _ => Unit
  | outputs _ => Table String

/-- The stack that a request is about. -/
def fqn : Request → String
  | describe fqn => fqn
  | create s => s.fqn
  | update s => s.fqn
  | destroy fqn => fqn
  | outputs fqn => fqn

end Request

/-- How a provider reacts. -/
inductive Reply (α : Type) where
  /-- An answer, or an error in its place. -/
  | answer (result : Except Error α)
  /-- The provider broke down, with a message if it left one. -/
  | crash (message : Option String)

/-- A provider whose memory is of type `σ`. -/
structure Provider (σ : Type) where
  /-- What the provider remembers after a request, and its reply. -/
  respond : σ → (r : Request) → σ × Reply r.Answer

/-- A provider that knows no stack and refuses every request. -/
def Provider.absent : Provider Unit where
  respond _ r := ((), .answer (.error (.provider "request" r.fqn "no provider")))

/-! ## Kinds of requests -/

/-- The kinds of requests. -/
inductive Operation where
  | describe
  | create
  | update
  | destroy
  | getOutputs
  deriving DecidableEq, Repr, Inhabited

namespace Operation

/-- The name of an operation. -/
def name : Operation → String
  | describe => "describe"
  | create => "create"
  | update => "update"
  | destroy => "destroy"
  | getOutputs => "get_outputs"

/-- All operations. -/
def all : List Operation := [describe, create, update, destroy, getOutputs]

/-- The operation of a name. -/
def ofName? (s : String) : Option Operation := all.find? (·.name == s)

/-- Reads an operation: its name, or an object that binds the name to `null`. -/
def ofJson? : Json → Option Operation
  | .str s => ofName? s
  | .obj [(s, .null)] => ofName? s
  | _ => none

end Operation

/-- The kind of a request. -/
def Request.operation : Request → Operation
  | describe _ => .describe
  | create _ => .create
  | update _ => .update
  | destroy _ => .destroy
  | outputs _ => .getOutputs

end Rollout

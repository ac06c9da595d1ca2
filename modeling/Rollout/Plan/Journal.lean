import Rollout.Data.Table
import Rollout.Plan.Event
import Rollout.Plan.Step

/-!
# Journals

A journal is what the events of one run have told so far. What is shown of a run while it goes on is
a view of the journal.

* `Journal.record`: adds an event in its envelope.
* `Journal.statusesOf`, `Journal.checkpoint`, `Journal.logLines`: the views.
* `Sink`: someone the envelopes are handed to, who may break down over one of them.
-/

namespace Rollout

/-- A snapshot as an object. -/
def Snapshot.toJson (s : Snapshot) : Json :=
  .obj [("name", .str s.name), ("status", s.status.toJson), ("last_updated", s.lastUpdated.toJson)]

/-- The events of one run. -/
structure Journal where
  /-- The run. -/
  runId : String
  /-- The envelopes so far, the last one first. -/
  reversed : List Envelope := []
  deriving Inhabited

namespace Journal

/-- The version of the form of events. -/
def version : UInt32 := 1

/-- The envelopes so far, in order. -/
def envelopes (j : Journal) : List Envelope := j.reversed.reverse

/-- The number of events so far. -/
def size (j : Journal) : Nat := j.reversed.length

/-- The envelope of the event that comes next. -/
def envelope (j : Journal) (now : Timestamp) (event : Event) : Envelope :=
  ⟨version, UInt64.ofNat j.size, j.runId, now, event⟩

/-- The journal with one more event. -/
def record (j : Journal) (now : Timestamp) (event : Event) : Journal :=
  { j with reversed := j.envelope now event :: j.reversed }

end Journal

/-! ## Views of some envelopes -/

namespace Envelope

/-- The statuses that a step got. -/
def statusesOf (step : String) (envelopes : List Envelope) : List Status :=
  envelopes.filterMap fun e => e.event.statusOf? step

/-- A table of the steps seen so far, with one more envelope seen. -/
def addTo (latest : Table Snapshot) (e : Envelope) : Table Snapshot :=
  match e.event with
  | .stepChanged step status lastUpdated => latest.insert step ⟨step, status, lastUpdated⟩
  | _ => latest

/-- The last status of every step, by name. -/
def checkpoint (envelopes : List Envelope) : Table Snapshot := envelopes.foldl addTo .empty

/-- The lines of a log of the steps: each step with the status it got, in words. -/
def logLines (envelopes : List Envelope) : List (String × String) :=
  envelopes.filterMap fun e =>
    match e.event with
    | .stepChanged step status _ => some (step, status.render)
    | _ => none

end Envelope

/-! ## Sinks -/

/-- Someone to whom the envelopes of a run are handed. The journal that ends with an envelope
decides whether the sink breaks down over it. -/
structure Sink where
  /-- The sink breaks down over the last envelope of the journal. -/
  breaksAt : Journal → Bool

/-- A sink that never breaks down. -/
def Sink.sound : Sink := ⟨fun _ => false⟩

/-- A sink that breaks down once: over the first envelope of some kind. -/
def Sink.fragile (property : Envelope → Bool) : Sink where
  breaksAt j :=
    match j.reversed with
    | last :: before => property last && !before.any property
    | [] => false

end Rollout

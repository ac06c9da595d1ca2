import Rollout.Dag.Operations

/-!
# Walks

A walk visits every node of a graph after all that the node depends on. It is told when a visit
ends and answers by starting the visits that have become possible. A visit that ends badly blocks
everything that depends on its node.

* `Walker`: how many visits may go on, and how many of them may hold a slot.
* `Walk`: a walk under way. `Walk.dispatch` starts visits, `Walk.settle` takes the end of one.
* `Walk.Reached`: the walks that are possible when visits end in whatever order.
* `VisitEnd`: how a visit ends.
* `WalkReport`: where the nodes end up. Every node that has been settled is in one of its lists.
* `Dag.walk`: the report of a walk whose visits end one by one, in the order of their starts.
-/

namespace Rollout

/-! ## Walkers -/

/-- How visits are started and how many of them may be in their critical part at once. -/
inductive Walker where
  /-- One visit at a time. -/
  | sequential
  /-- Every visit as soon as it is possible. -/
  | unbounded
  /-- The same, but at most `limit` visits hold a slot at once. -/
  | bounded (limit : Nat) (positive : 0 < limit)
  deriving DecidableEq, Repr

namespace Walker

instance : Inhabited Walker := ⟨unbounded⟩

/-- The walker with some number of slots; without slots it is not bounded. -/
def ofLimit (limit : Nat) : Walker := if h : 0 < limit then bounded limit h else unbounded

/-- How much may go on at once. -/
def limit : Walker → Option Nat
  | sequential => some 1
  | unbounded => none
  | bounded limit _ => some limit

/-- How many visits may be under way at once. -/
def cap : Walker → Option Nat
  | sequential => some 1
  | _ => none

/-- How many slots there are, if visits need one. -/
def slots : Walker → Option Nat
  | bounded limit _ => some limit
  | _ => none

/-- The kind of the walker. -/
def name : Walker → String
  | sequential => "sequential"
  | unbounded => "unbounded"
  | bounded _ _ => "bounded"

end Walker

/-! ## Reports -/

/-- How a visit ends. -/
inductive VisitEnd where
  /-- It says whether it went well. -/
  | returned (ok : Bool)
  /-- It breaks off and says nothing. -/
  | crashed
  deriving DecidableEq, Repr

/-- The visit ended well. -/
def VisitEnd.isOk : VisitEnd → Bool
  | returned ok => ok
  | crashed => false

/-- Where the nodes of a walk have ended up. -/
structure WalkReport (α : Type) where
  /-- The nodes whose visit ended well, in the order in which the visits ended. -/
  completed : List α := []
  /-- The nodes whose visit ended badly. -/
  failed : List α := []
  /-- The nodes never visited because something they depend on failed. -/
  blocked : List α := []
  deriving DecidableEq, Repr, Inhabited

namespace WalkReport

variable {α : Type}

/-- Every visit ended well. -/
def isSuccess (r : WalkReport α) : Bool := r.failed.isEmpty && r.blocked.isEmpty

/-- The nodes that have ended up somewhere. -/
def settled (r : WalkReport α) : List α := r.completed ++ r.failed ++ r.blocked

end WalkReport

/-! ## Walks under way -/

/-- A walk under way. -/
structure Walk (α : Type) where
  /-- The graph. -/
  dag : Dag α
  /-- How many visits may be under way at once. -/
  cap : Option Nat
  /-- The nodes whose visit has been started, in that order. -/
  dispatched : List α := []
  /-- Where nodes have ended up so far. -/
  report : WalkReport α := {}

namespace Walk

variable {α : Type} [DecidableEq α]

/-- The nodes under visit. -/
def inFlight (w : Walk α) : List α := w.dispatched.filter (· ∉ w.report.settled)

/-- No further visit may be under way. -/
def isFull (w : Walk α) : Bool :=
  match w.cap with
  | some cap => cap ≤ w.inFlight.length
  | none => false

/-- The visit of `n` is possible and has not been started. -/
def isReady (w : Walk α) (n : α) : Bool :=
  n ∉ w.dispatched && n ∉ w.report.settled &&
    (w.dag.dependencies n).all (· ∈ w.report.completed)

/-- The walk with the visit of `n` started, if that is possible. -/
def dispatchNode (w : Walk α) (n : α) : Walk α :=
  if !w.isFull && w.isReady n then { w with dispatched := w.dispatched ++ [n] } else w

/-- The walk with every possible visit started, earlier nodes first. -/
def dispatch (w : Walk α) : Walk α := w.dag.nodes.foldl dispatchNode w

/-- A walk that has just begun. -/
def start (dag : Dag α) (cap : Option Nat) : Walk α := dispatch { dag, cap }

/-- The nodes that depend on `n`, directly or not, and have not ended up anywhere. -/
def behind (w : Walk α) (n : α) : List α :=
  match w.dag.allDependentsOf n with
  | .ok dependents => dependents.filter fun m => m ≠ n && m ∉ w.report.settled
  | .error _ => []

/-- The report with the end of the visit of `n`. -/
def conclude (w : Walk α) (n : α) (ok : Bool) : WalkReport α :=
  if ok then { w.report with completed := w.report.completed ++ [n] }
  else
    { w.report with
      failed := w.report.failed ++ [n]
      blocked := w.report.blocked ++ w.behind n }

/-- The walk after the visit of `n` has ended, well or badly. -/
def settle (w : Walk α) (n : α) (ok : Bool) : Walk α :=
  dispatch { w with report := w.conclude n ok }

/-- No visit is under way, and none will be. -/
def isOver (w : Walk α) : Bool := w.inFlight.isEmpty

/-- A walk from its beginning on, whose visits end as `visit` says and in whatever order. -/
inductive Reached (dag : Dag α) (cap : Option Nat) (visit : α → Bool) : Walk α → Prop where
  | start : Reached dag cap visit (start dag cap)
  | settle {w : Walk α} {n : α} (before : Reached dag cap visit w) (under : n ∈ w.inFlight) :
      Reached dag cap visit (w.settle n (visit n))

/-- The walk after at most `count` further visits, which end in the order of their starts. -/
def visitNext (visit : α → Bool) : Nat → Walk α → Walk α
  | 0, w => w
  | count + 1, w =>
    match w.inFlight with
    | [] => w
    | n :: _ => visitNext visit count (w.settle n (visit n))

end Walk

/-- The report of a walk whose visits end one by one in the order of their starts. -/
def Dag.walk {α : Type} [DecidableEq α] (d : Dag α) (walker : Walker) (visit : α → Bool) :
    WalkReport α :=
  ((Walk.start d walker.cap).visitNext visit d.size).report

end Rollout

import Rollout.Dag.Operations
import Rollout.Data.Table
import Rollout.Json.Writer
import Rollout.Text.Basic
import Rollout.Text.Lowercase

/-!
# Graphs as text

* `toJson`: an object that binds each node to the list of its dependencies.
* `toDot`: a digraph whose nodes are numbered in insertion order and labelled by name.
* `render`: either of them, after dropping implied edges if that is asked for.
-/

namespace Rollout

/-- The formats a graph can be written in. -/
inductive GraphFormat where
  | dot
  | json
  deriving DecidableEq, Repr, Inhabited

namespace GraphFormat

/-- The name of the format. -/
def name : GraphFormat → String
  | dot => "dot"
  | json => "json"

/-- The text for a name that names no format. -/
def unknownMessage (name : String) : String :=
  "invalid graph format: " ++ name ++ " (expected \"dot\" or \"json\")"

/-- The format of a name in any case, blanks around it apart; or the text of an error. -/
def parse (s : String) : Except String GraphFormat :=
  match Text.lowercase (Text.strip s) with
  | "dot" => .ok dot
  | "json" => .ok json
  | other => .error (unknownMessage other)

end GraphFormat

namespace Dag

/-- An object of the nodes in ascending order, each with its dependencies in theirs. -/
def toJson (d : Dag String) : Json :=
  .obj ((Table.ofList d.toDependencies).toList.map fun e => (e.1, Json.ofTexts e.2))

/-- A character in a label: quotes and backslashes get a backslash, and a line break is `\l`. -/
def labelChar (c : Char) : List Char :=
  if c == '"' || c == '\\' then ['\\', c]
  else if c == '\n' then ['\\', 'l']
  else [c]

/-- The name of a node inside a label. -/
def label (name : String) : String := String.ofList (name.toList.flatMap labelChar)

/-- The line of the node number `i`. -/
def nodeLine (i : Nat) (name : String) : String :=
  "    " ++ toString i ++ " [ label = \"" ++ label name ++ "\" ]\n"

/-- The line of the edge between two node numbers. -/
def edgeLine (i j : Nat) : String := "    " ++ toString i ++ " -> " ++ toString j ++ " [ ]\n"

/-- The graph in the DOT language: the nodes, then the edges. -/
def toDot (d : Dag String) : String :=
  let nodeLines := d.nodes.zipIdx.map fun (name, i) => nodeLine i name
  let edgeLines := d.edges.map fun (source, target) =>
    edgeLine (d.nodes.idxOf source) (d.nodes.idxOf target)
  "digraph \x7b\n" ++ String.join nodeLines ++ String.join edgeLines ++ "\x7d\n"

/-- The graph as text, without its implied edges if `reduced` is set. -/
def render (d : Dag String) (format : GraphFormat) (reduced : Bool) : String :=
  let d := if reduced then d.reduce else d
  match format with
  | .dot => d.toDot
  | .json => d.toJson.pretty

end Dag

end Rollout

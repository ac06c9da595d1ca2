import Rollout.Data.Table
import Rollout.Yaml.Token

/-!
# Nodes of YAML

A document is a tree of nodes: scalars, sequences and mappings. An alias stands for the node that
the anchor of its name was set at last.

* `Node`: the nodes.
* `Grammar`: how nodes are put together from tokens.
* `Node.ofText?`: the node of a text with exactly one document.
-/

namespace Rollout.Yaml

/-- A node of a document. -/
inductive Node where
  /-- A text, with its style and with its tag if it has one. -/
  | scalar (style : Style) (tag : Option String) (text : String)
  | sequence (items : List Node)
  | mapping (entries : List (Node × Node))
  /-- An alias inside the node that it stands for. -/
  | recursive
  deriving Repr, Inhabited

namespace Grammar

/-- What is known while nodes are put together. -/
structure State where
  /-- The tokens to come. -/
  tokens : List Token
  /-- What the handles of tags stand for. -/
  handles : Table String := .empty
  /-- The number of the last anchor of each name. -/
  anchors : Table Nat := .empty
  /-- The nodes of the anchors whose nodes are complete, by number. -/
  complete : List (Nat × Node) := []
  /-- The number of the next anchor. -/
  next : Nat := 0

/-- A part of the grammar: it takes tokens and yields something, or there is a fault. -/
abbrev Part (α : Type) : Type := StateT State Option α

/-- The next token. Behind the last one the stream is at its end. -/
def peek : Part Token := do return (← get).tokens.head?.getD .streamEnd

/-- Takes the next token. -/
def advance : Part Unit := modify fun s => { s with tokens := s.tokens.tail }

/-- There is a fault. -/
def fault {α : Type} : Part α := fun _ => none

/-- A node that is not there. -/
def absent : Node := .scalar .plain none ""

/-! ## Properties of nodes -/

/-- The tag of a handle and a suffix. -/
def resolveTag (handle suffix : String) : Part String := do
  if handle.isEmpty then return suffix
  match (← get).handles.get? handle with
  | some expansion => return expansion ++ suffix
  | none => fault

/-- The tag that comes next, if one does. -/
def tag? : Part (Option String) := do
  match ← peek with
  | .tag handle suffix =>
    advance
    return some (← resolveTag handle suffix)
  | _ => return none

/-- The anchor that comes next, if one does. -/
def anchor? : Part (Option String) := do
  match ← peek with
  | .anchor name =>
    advance
    return some name
  | _ => return none

/-- The tag and the anchor of a node, in either order. -/
def properties : Part (Option String × Option String) := do
  match ← anchor? with
  | some name => return (← tag?, some name)
  | none =>
    let tag ← tag?
    if tag.isSome then return (tag, ← anchor?) else return (none, none)

/-- A node for an alias. -/
def resolveAlias (name : String) : Part Node := do
  let s ← get
  match s.anchors.get? name with
  | some number => return (s.complete.lookup number).getD .recursive
  | none => fault

/-- Sets the anchor of a name for a node that begins here, and again when the node is complete. -/
def anchored (name : Option String) (node : Part Node) : Part Node := do
  match name with
  | none => node
  | some name =>
    let number := (← get).next
    modify fun s => { s with anchors := s.anchors.insert name number, next := number + 1 }
    let node ← node
    modify fun s => { s with complete := (number, node) :: s.complete }
    return node

/-- The tag of a scalar as it counts: the mark alone says nothing. -/
def scalarTag (tag : Option String) : Option String := if tag == some "!" then none else tag

/-! ## Nodes -/

mutual

/-- A node. In a block, blocks may follow, and for the value of a key also entries that are not
indented. -/
def node : Nat → Bool → Bool → Part Node
  | 0, _, _ => fault
  | fuel + 1, inBlock, indentless => do
    match ← peek with
    | .alias name =>
      advance
      resolveAlias name
    | _ =>
      let (tag, name) ← properties
      anchored name <| do
        match ← peek with
        | .blockEntry =>
          if indentless then return .sequence (← indentlessEntries fuel)
          else if tag.isSome || name.isSome then return .scalar .plain tag ""
          else fault
        | .scalar style text =>
          advance
          return .scalar style (scalarTag tag) text
        | .flowSequenceStart =>
          advance
          return .sequence (← flowItems fuel true)
        | .flowMappingStart =>
          advance
          return .mapping (← flowEntries fuel true)
        | token =>
          if inBlock && token == .blockSequenceStart then
            advance
            return .sequence (← blockItems fuel)
          else if inBlock && token == .blockMappingStart then
            advance
            return .mapping (← blockEntries fuel)
          else if tag.isSome || name.isSome then return .scalar .plain tag ""
          else fault

/-- A node, unless one of some tokens comes next. -/
def nodeUnless : Nat → List Token → Bool → Bool → Part Node
  | 0, _, _, _ => fault
  | fuel + 1, stops, inBlock, indentless => do
    if stops.contains (← peek) then return absent else node fuel inBlock indentless

/-- The items of a sequence in a block. -/
def blockItems : Nat → Part (List Node)
  | 0 => fault
  | fuel + 1 => do
    match ← peek with
    | .blockEntry =>
      advance
      let item ← nodeUnless fuel [.blockEntry, .blockEnd] true false
      return item :: (← blockItems fuel)
    | .blockEnd =>
      advance
      return []
    | _ => fault

/-- The items of a sequence that is not indented. -/
def indentlessEntries : Nat → Part (List Node)
  | 0 => fault
  | fuel + 1 => do
    match ← peek with
    | .blockEntry =>
      advance
      let item ← nodeUnless fuel [.blockEntry, .key, .value, .blockEnd] true false
      return item :: (← indentlessEntries fuel)
    | _ => return []

/-- The entries of a mapping in a block. -/
def blockEntries : Nat → Part (List (Node × Node))
  | 0 => fault
  | fuel + 1 => do
    match ← peek with
    | .key =>
      advance
      let key ← nodeUnless fuel [.key, .value, .blockEnd] true true
      let value ←
        if (← peek) == .value then do
          advance
          nodeUnless fuel [.key, .value, .blockEnd] true true
        else pure absent
      return (key, value) :: (← blockEntries fuel)
    | .blockEnd =>
      advance
      return []
    | _ => fault

/-- The items of a sequence between brackets. -/
def flowItems : Nat → Bool → Part (List Node)
  | 0, _ => fault
  | fuel + 1, first => do
    if (← peek) == .flowSequenceEnd then
      advance
      return []
    else
      if !first then
        if (← peek) == .flowEntry then advance else fault
      match ← peek with
      | .flowSequenceEnd =>
        advance
        return []
      | .key =>
        advance
        let item ← singleEntry fuel
        return item :: (← flowItems fuel false)
      | _ =>
        let item ← node fuel false false
        return item :: (← flowItems fuel false)

/-- A mapping with one entry, which stands between brackets like an item. -/
def singleEntry : Nat → Part Node
  | 0 => fault
  | fuel + 1 => do
    let key ←
      if [.value, .flowEntry, .flowSequenceEnd].contains (← peek) then do
        advance
        pure absent
      else node fuel false false
    let value ←
      if (← peek) == .value then do
        advance
        nodeUnless fuel [.flowEntry, .flowSequenceEnd] false false
      else pure absent
    return .mapping [(key, value)]

/-- The entries of a mapping between braces. -/
def flowEntries : Nat → Bool → Part (List (Node × Node))
  | 0, _ => fault
  | fuel + 1, first => do
    if (← peek) == .flowMappingEnd then
      advance
      return []
    else
      if !first then
        if (← peek) == .flowEntry then advance else fault
      match ← peek with
      | .flowMappingEnd =>
        advance
        return []
      | .key =>
        advance
        let key ← nodeUnless fuel [.value, .flowEntry, .flowMappingEnd] false false
        let value ←
          if (← peek) == .value then do
            advance
            nodeUnless fuel [.flowEntry, .flowMappingEnd] false false
          else pure absent
        return (key, value) :: (← flowEntries fuel false)
      | _ =>
        let key ← node fuel false false
        return (key, absent) :: (← flowEntries fuel false)

end

/-! ## Documents -/

/-- The directives before a document: at most one version, which has to be known, and the handles of
tags, each at most once. -/
def directives : Nat → Bool → Table String → Part (Table String)
  | 0, _, _ => fault
  | fuel + 1, versioned, handles => do
    match ← peek with
    | .versionDirective major minor =>
      if versioned || major ≠ 1 || (minor ≠ 1 && minor ≠ 2) then fault
      else
        advance
        directives fuel true handles
    | .tagDirective handle expansion =>
      if handles.contains handle then fault
      else
        advance
        directives fuel versioned (handles.insert handle expansion)
    | _ => return handles

/-- The handles of tags with the two that always stand for something. -/
def withStandardHandles (handles : Table String) : Table String :=
  [("!", "!"), ("!!", "tag:yaml.org,2002:")].foldl
    (fun handles (handle, expansion) =>
      if handles.contains handle then handles else handles.insert handle expansion) handles

/-- The beginning of a document: directives and a mark, or nothing at all. -/
def documentStart (fuel : Nat) : Part Bool := do
  match ← peek with
  | .versionDirective _ _ | .tagDirective _ _ | .documentStart =>
    let handles ← directives fuel false .empty
    modify fun s => { s with handles := withStandardHandles handles }
    if (← peek) == .documentStart then advance else fault
    return true
  | .streamEnd => fault
  | _ =>
    modify fun s => { s with handles := withStandardHandles .empty }
    return false

/-- What comes next is no content of a document. -/
def endsDocument : Token → Bool
  | .versionDirective _ _ | .tagDirective _ _ | .documentStart | .documentEnd | .streamEnd => true
  | _ => false

/-- Skips marks at which a document ends. -/
def skipDocumentEnds : Nat → Part Unit
  | 0 => fault
  | fuel + 1 => do
    if (← peek) == .documentEnd then
      advance
      skipDocumentEnds fuel

/-- The only document of a stream. -/
def stream (fuel : Nat) : Part Node := do
  let marked ← documentStart fuel
  let root ← if marked && endsDocument (← peek) then pure absent else node fuel true false
  skipDocumentEnds fuel
  if (← peek) == .streamEnd then return root else fault

end Grammar

/-- The node of a text that has exactly one document. -/
def Node.ofText? (text : String) : Option Node := do
  let tokens ← Token.ofText? text
  ((Grammar.stream (4 * tokens.length + 8)).run { tokens }).map (·.1)

end Rollout.Yaml

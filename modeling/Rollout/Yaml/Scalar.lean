import Rollout.Yaml.Cursor

/-!
# Scalars

How the text of a scalar is read off a YAML text, by its style.

* `plain?`: a scalar without marks around it.
* `quoted?`: a scalar between quotes.
* `block?`: a scalar of whole lines, kept or folded.

Each comes with the place behind the scalar. Where lines are folded, one break becomes a blank, and
of several all but the first are kept.
-/

namespace Rollout.Yaml

/-- How a scalar is written. -/
inductive Style where
  | plain
  | singleQuoted
  | doubleQuoted
  | literal
  | folded
  deriving DecidableEq, Repr, Inhabited

namespace Scalar

/-! ## Gaps inside scalars -/

/-- What stands between two pieces of a scalar: blanks, or line breaks. -/
structure Gap where
  /-- The blanks before any break, the last one first. -/
  spaces : List Char := []
  /-- There has been a break. -/
  broken : Bool := false
  /-- The first break, if it counts. -/
  leading : Option Char := none
  /-- The further breaks, the last one first. -/
  trailing : List Char := []

/-- What a gap stands for. -/
def Gap.text (g : Gap) : List Char :=
  if g.broken then
    match g.leading with
    | some '\n' => if g.trailing.isEmpty then [' '] else g.trailing.reverse
    | some c => c :: g.trailing.reverse
    | none => g.trailing.reverse
  else g.spaces.reverse

/-- A gap with one more blank or break. Blanks behind a break do not count. -/
def Gap.add (g : Gap) (c : Char) : Gap :=
  if isBreak c then
    if g.broken then { g with trailing := c :: g.trailing }
    else { g with broken := true, leading := some c }
  else if g.broken then g
  else { g with spaces := c :: g.spaces }

/-! ## Plain scalars -/

/-- The characters that end a plain scalar between brackets. -/
def isFlowIndicator (c : Char) : Bool := [',', '[', ']', '{', '}'].contains c

/-- The next character ends a plain scalar. -/
def endsPlain (inFlow : Bool) (c : Char) (rest : List Char) : Bool :=
  (c == ':' && atGap rest) || (inFlow && isFlowIndicator c)

/-- A colon between brackets that neither ends a plain scalar nor belongs to it. -/
def isStrayColon (inFlow : Bool) (c : Char) (rest : List Char) : Bool :=
  inFlow && c == ':' &&
    match rest with
    | d :: _ => d == '?' || isFlowIndicator d
    | [] => false

/-- Reads on in a plain scalar. `text` is what has been read, the last character first, `gap` is
what has come after it, and `inPiece` says that the last character belongs to the scalar. -/
def plainFrom (inFlow : Bool) (indent : Int) :
    Nat → Cursor → List Char → Gap → Bool → Option (List Char × Gap × Cursor)
  | 0, c, text, gap, _ => some (text, gap, c)
  | fuel + 1, c, text, gap, inPiece =>
    match c.rest with
    | [] => some (text, gap, c)
    | d :: rest =>
      if isGap d then
        if gap.broken && (c.column : Int) < indent && d == '\t' then none
        else plainFrom inFlow indent fuel c.next text (gap.add d) false
      else if !inPiece && !inFlow && !text.isEmpty && (c.column : Int) < indent then
        some (text, gap, c)
      else if !inPiece && (c.atDocumentMarker || d == '#') then some (text, gap, c)
      else if isStrayColon inFlow d rest then none
      else if endsPlain inFlow d rest then some (text, gap, c)
      else plainFrom inFlow indent fuel c.next (d :: (gap.text.reverse ++ text)) {} true

/-- A plain scalar, whether it ended behind a line break, and the place behind it and behind the
blanks that follow. -/
def plain? (inFlow : Bool) (indent : Int) (c : Cursor) : Option (String × Bool × Cursor) :=
  (plainFrom inFlow indent (c.rest.length + 1) c [] {} false).map fun (text, gap, c) =>
    (String.ofList text.reverse, gap.broken, c)

/-! ## Quoted scalars -/

/-- The character of a code point that is one. -/
def character? (n : Nat) : Option Char := if n.isValidChar then some (Char.ofNat n) else none

/-- The character that some hexadecimal digits name, and the place behind them. -/
def coded? (count : Nat) (c : Cursor) : Option (Char × Cursor) := do
  let digits := c.rest.take count
  if digits.length < count then none
  else pure (← character? (← Text.number? 16 digits), c.skip count)

/-- The character that an escape behind a backslash stands for. -/
def escaped? (c : Cursor) : Option (Char × Cursor) :=
  match c.rest with
  | [] => none
  | d :: _ =>
    match d with
    | '0' => some ('\x00', c.next)
    | 'a' => some ('\x07', c.next)
    | 'b' => some ('\x08', c.next)
    | 't' | '\t' => some ('\t', c.next)
    | 'n' => some ('\n', c.next)
    | 'v' => some ('\x0b', c.next)
    | 'f' => some ('\x0c', c.next)
    | 'r' => some ('\r', c.next)
    | 'e' => some ('\x1b', c.next)
    | ' ' | '"' | '/' | '\\' => some (d, c.next)
    | 'N' => some ('\u0085', c.next)
    | '_' => some ('\u00a0', c.next)
    | 'L' => some ('\u2028', c.next)
    | 'P' => some ('\u2029', c.next)
    | 'x' => coded? 2 c.next
    | 'u' => coded? 4 c.next
    | 'U' => coded? 8 c.next
    | _ => none

/-- Reads on in a quoted scalar up to its closing quote; arguments as for plain scalars. -/
def quotedFrom (quote : Char) : Nat → Cursor → List Char → Gap → Bool → Option (List Char × Cursor)
  | 0, _, _, _, _ => none
  | fuel + 1, c, text, gap, inPiece =>
    match c.rest with
    | [] => none
    | d :: rest =>
      if isGap d then quotedFrom quote fuel c.next text (gap.add d) false
      else if !inPiece && c.atDocumentMarker then none
      else
        let text := gap.text.reverse ++ text
        if d == quote then
          if quote == '\'' && rest.head? == some '\'' then
            quotedFrom quote fuel (c.skip 2) ('\'' :: text) {} true
          else some (text, c.next)
        else if quote == '"' && d == '\\' then
          if c.next.atBreak then quotedFrom quote fuel (c.skip 2) text { broken := true } false
          else
            match escaped? c.next with
            | some (e, c) => quotedFrom quote fuel c (e :: text) {} true
            | none => none
        else quotedFrom quote fuel c.next (d :: text) {} true

/-- A scalar between two quotes of a kind. -/
def quoted? (quote : Char) (c : Cursor) : Option (String × Cursor) :=
  (quotedFrom quote (c.rest.length + 1) c.next [] {} false).map fun (text, c) =>
    (String.ofList text.reverse, c)

/-! ## Block scalars -/

/-- What becomes of the line breaks at the end of a block scalar. -/
inductive Chomping where
  /-- All are dropped. -/
  | strip
  /-- The first one is kept. -/
  | clip
  /-- All are kept. -/
  | keep
  deriving DecidableEq, Repr, Inhabited

/-- The sign of a chomping. -/
def chomping? : Char → Option Chomping
  | '+' => some .keep
  | '-' => some .strip
  | _ => none

/-- A digit that says by how much the lines are indented; it is not zero. -/
def increment? (c : Cursor) : Option (Option Nat × Cursor) :=
  match c.rest with
  | d :: _ =>
    if d.isDigit then
      if d == '0' then none else some (some (Text.decimalValue d), c.next)
    else some (none, c)
  | [] => some (none, c)

/-- The sign of a chomping, if one comes next. -/
def sign (c : Cursor) : Option Chomping × Cursor :=
  match c.rest.head?.bind chomping? with
  | some chomping => (some chomping, c.next)
  | none => (none, c)

/-- The chomping and the increment behind the mark of a block scalar, in either order. -/
def header? (c : Cursor) : Option (Chomping × Option Nat × Cursor) := do
  match sign c with
  | (some chomping, c) =>
    let (increment, c) ← increment? c
    pure (chomping, increment, c)
  | (none, c) =>
    let (increment, c) ← increment? c
    let (chomping, c) := if increment.isSome then sign c else (none, c)
    pure (chomping.getD .clip, increment, c)

/-- Skips the indentation of a line and empty lines before it. The indentation is at most `indent`,
if that is known. Comes with the breaks, the last one first, and with the deepest indentation. -/
def blockGap? (indent : Option Nat) : Nat → Cursor → List Char → Nat →
    Option (List Char × Nat × Cursor)
  | 0, c, breaks, deepest => some (breaks, deepest, c)
  | fuel + 1, c, breaks, deepest =>
    let room := match indent with
      | none => c.rest.length
      | some n => n - c.column
    let c := c.skip ((c.rest.take room).takeWhile (· == ' ')).length
    let deepest := max deepest c.column
    let inIndentation := match indent with
      | none => true
      | some n => c.column < n
    if inIndentation && c.isAt '\t' then none
    else
      match c.rest with
      | d :: _ =>
        if isBreak d then blockGap? indent fuel c.next (d :: breaks) deepest
        else some (breaks, deepest, c)
      | [] => some (breaks, deepest, c)

/-- Reads the lines of a block scalar. `text` is what has been read, the last character first;
`ending` is the break of the line before, `blank` says that it began with a blank, and `breaks` are
the empty lines after it. -/
def blockLines? (keepsLines : Bool) (indent : Nat) :
    Nat → Cursor → List Char → Option Char → Bool → List Char →
    Option (List Char × Option Char × List Char × Cursor)
  | 0, c, text, ending, _, breaks => some (text, ending, breaks, c)
  | fuel + 1, c, text, ending, blank, breaks =>
    if c.column ≠ indent || c.rest.isEmpty then some (text, ending, breaks, c)
    else
      let startsBlank := match c.rest with
        | d :: _ => isSpace d
        | [] => false
      let joint :=
        if !keepsLines && ending == some '\n' && !blank && !startsBlank then
          if breaks.isEmpty then [' '] else breaks
        else breaks ++ ending.toList
      let (line, c) := c.span (!isBreak ·)
      let text := line.reverse ++ joint ++ text
      let ending := if c.atBreak then c.rest.head? else none
      match blockGap? (some indent) (c.rest.length + 1) c.next [] 0 with
      | none => none
      | some (breaks, _, c) => blockLines? keepsLines indent fuel c text ending startsBlank breaks

/-- The breaks at the end of a block scalar that are kept, the last one first. -/
def Chomping.tail (chomping : Chomping) (ending : Option Char) (breaks : List Char) : List Char :=
  match chomping with
  | .strip => []
  | .clip => ending.toList
  | .keep => breaks ++ ending.toList

/-- A block scalar inside a block that is indented by `outer`. -/
def block? (keepsLines : Bool) (outer : Int) (c : Cursor) : Option (String × Cursor) := do
  let (chomping, increment, c) ← header? c.next
  let c ← c.lineEnd?
  let known := increment.map fun n => (if 0 ≤ outer then outer.toNat else 0) + n
  let (breaks, deepest, c) ← blockGap? known (c.rest.length + 1) c [] 0
  let indent := known.getD (max deepest (max (outer + 1).toNat 1))
  let (text, ending, breaks, c) ←
    blockLines? keepsLines indent (c.rest.length + 1) c [] none false breaks
  pure (String.ofList (chomping.tail ending breaks ++ text).reverse, c)

end Scalar

end Rollout.Yaml

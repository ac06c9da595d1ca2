import Rollout.Yaml.Scalar

/-!
# Tokens of YAML

A YAML text is cut into tokens. The tokens also tell where a block begins and ends, which the text
shows by indentation only.

A key is known as such only when its colon is found. Until then its place is remembered: a place can
be that of a key only in its own line and for 1024 characters, and there is at most one for each
level of brackets.

* `Token`: the kinds of tokens.
* `Scan`: the state of a scan, and the steps that yield one token each.
* `Token.ofText?`: the tokens of a text.
-/

namespace Rollout.Yaml

/-- A token of a YAML text. -/
inductive Token where
  | streamEnd
  | versionDirective (major minor : Nat)
  | tagDirective (handle expansion : String)
  | documentStart
  | documentEnd
  | blockSequenceStart
  | blockMappingStart
  | blockEnd
  | flowSequenceStart
  | flowSequenceEnd
  | flowMappingStart
  | flowMappingEnd
  | blockEntry
  | flowEntry
  | key
  | value
  | alias (name : String)
  | anchor (name : String)
  | tag (handle suffix : String)
  | scalar (style : Style) (text : String)
  deriving DecidableEq, Repr, Inhabited

/-- A place at which a key may turn out to have begun. -/
structure KeyPlace where
  /-- It must turn out so: nothing else can stand here. -/
  required : Bool
  /-- The number of tokens before it. -/
  number : Nat
  /-- Where it is in the text. -/
  cursor : Cursor

/-- A scan under way. -/
structure Scan where
  /-- The place reached. -/
  cursor : Cursor
  /-- The tokens so far. -/
  tokens : Array Token := #[]
  /-- The possible key for each level of brackets, the innermost first. -/
  keys : List (Option KeyPlace) := [none]
  /-- The indentation of the block, `-1` outside of all blocks. -/
  indent : Int := -1
  /-- The indentations of the blocks around it, the innermost first. -/
  indents : List Int := []
  /-- A key may begin here. -/
  allowsKey : Bool := true

namespace Scan

/-! ## Keys and blocks -/

/-- The place is between brackets. -/
def inFlow (s : Scan) : Bool := 1 < s.keys.length

/-- The column of the place. -/
def column (s : Scan) : Int := s.cursor.column

/-- The scan with a token at the end. -/
def push (s : Scan) (t : Token) : Scan := { s with tokens := s.tokens.push t }

/-- The scan with a token before token number `n`. -/
def insert (s : Scan) (n : Nat) (t : Token) : Scan :=
  { s with tokens := s.tokens.insertIdxIfInBounds n t }

/-- The scan behind the next `n` characters. -/
def skip (s : Scan) (n : Nat) : Scan := { s with cursor := s.cursor.skip n }

/-- No key begins at the innermost place; that is a fault if one had to. -/
def dropKey? (s : Scan) : Option Scan :=
  match s.keys with
  | some place :: rest => if place.required then none else some { s with keys := none :: rest }
  | _ => some s

/-- A key may begin at this place, if keys are allowed. -/
def markKey? (s : Scan) : Option Scan :=
  if s.allowsKey then do
    let place : KeyPlace := ⟨!s.inFlow && s.indent == s.column, s.tokens.size, s.cursor⟩
    let s ← s.dropKey?
    pure { s with keys := some place :: s.keys.tail }
  else some s

/-- The place can still be that of a key when the scan has come to another one. -/
def KeyPlace.isFresh (place : KeyPlace) (c : Cursor) : Bool :=
  c.line ≤ place.cursor.line && c.index ≤ place.cursor.index + 1024

/-- The scan without the places that can no longer be those of keys. -/
def dropStale? (s : Scan) : Option Scan := do
  let keys ← s.keys.mapM fun place? =>
    match place? with
    | none => some none
    | some place =>
      if KeyPlace.isFresh place s.cursor then some (some place)
      else if place.required then none
      else some none
  pure { s with keys }

/-- Opens a block at a column, if it is deeper than the block around it. Its first token goes before
token number `n`, or to the end. -/
def openBlock (s : Scan) (column : Int) (n : Option Nat) (t : Token) : Scan :=
  if !s.inFlow && s.indent < column then
    let s := { s with indents := s.indent :: s.indents, indent := column }
    match n with
    | some n => s.insert n t
    | none => s.push t
  else s

/-- Closes the blocks of `indents` that are deeper than a column. -/
def closeDeeper (column : Int) : List Int → Scan → Scan
  | [], s => s
  | outer :: rest, s =>
    if column < s.indent then
      closeDeeper column rest { s.push .blockEnd with indent := outer, indents := rest }
    else s

/-- Closes the blocks that are deeper than a column. -/
def closeBlocks (s : Scan) (column : Int) : Scan :=
  if s.inFlow then s else closeDeeper column s.indents s

/-! ## Gaps between tokens -/

/-- Skips blanks, comments and line breaks. A tab is a blank only where no key may begin. -/
def skipGaps : Nat → Scan → Scan
  | 0, s => s
  | fuel + 1, s =>
    let c := if s.cursor.index == 0 && s.cursor.isAt '\ufeff' then s.cursor.next else s.cursor
    let c := c.dropWhile fun d => d == ' ' || (d == '\t' && (s.inFlow || !s.allowsKey))
    let c := if c.isAt '#' then c.dropWhile (!isBreak ·) else c
    if c.atBreak then
      skipGaps fuel { s with cursor := c.next, allowsKey := s.allowsKey || !s.inFlow }
    else { s with cursor := c }

/-! ## Directives -/

/-- A number of at most nine digits. -/
def versionNumber? (c : Cursor) : Option (Nat × Cursor) :=
  let (digits, c) := c.span Char.isDigit
  if digits.isEmpty || 9 < digits.length then none else some (Text.decimal digits, c)

/-- The version behind the name of its directive. -/
def version? (c : Cursor) : Option (Token × Cursor) := do
  let (major, c) ← versionNumber? (c.dropWhile isSpace)
  if c.isAt '.' then
    let (minor, c) ← versionNumber? c.next
    pure (.versionDirective major minor, c)
  else none

/-- The handle of a tag: a mark, perhaps a name, and perhaps a second mark. -/
def handle? (c : Cursor) : Option (List Char × Cursor) :=
  if c.isAt '!' then
    let (name, c) := c.next.span isWord
    if c.isAt '!' then some ('!' :: name ++ ['!'], c.next) else some ('!' :: name, c)
  else none

/-- A character of a tag. Inside angle brackets a few more are allowed. -/
def isTagCharacter (verbatim : Bool) (c : Char) : Bool :=
  isWord c ||
    [';', '/', '?', ':', '@', '&', '=', '+', '$', '.', '%', '!', '~', '*', '\''].contains c ||
    ['(', ')'].contains c || (verbatim && [',', '[', ']'].contains c)

/-- The byte of two hexadecimal digits behind a percent sign. -/
def escapedByte? : List Char → Option (Nat × List Char)
  | '%' :: a :: b :: rest => (Text.number? 16 [a, b]).map (·, rest)
  | _ => none

/-- The payload of `count` further bytes of a character, added to what has been read of it. -/
def furtherBytes? : Nat → Nat → List Char → Option (Nat × List Char)
  | 0, value, s => some (value, s)
  | count + 1, value, s => do
    let (byte, s) ← escapedByte? s
    if byte / 64 = 2 then furtherBytes? count (value * 64 + byte % 64) s else none

/-- The character that escaped bytes stand for. -/
def escapedCharacter? (s : List Char) : Option (Char × List Char) := do
  let (byte, s) ← escapedByte? s
  let (value, s) ←
    if byte < 0x80 then some (byte, s)
    else if byte / 32 = 6 then furtherBytes? 1 (byte % 32) s
    else if byte / 16 = 14 then furtherBytes? 2 (byte % 16) s
    else if byte / 8 = 30 then furtherBytes? 3 (byte % 8) s
    else none
  pure (← Scalar.character? value, s)

/-- The text of a tag with its escapes replaced. -/
def unescapeTag? : Nat → List Char → Option (List Char)
  | 0, _ => none
  | _ + 1, [] => some []
  | fuel + 1, c :: rest =>
    if c == '%' then do
      let (d, rest) ← escapedCharacter? (c :: rest)
      (unescapeTag? fuel rest).map (d :: ·)
    else (unescapeTag? fuel rest).map (c :: ·)

/-- The characters of a tag that come next, behind `head`. There has to be something. -/
def tagText? (verbatim : Bool) (head : List Char) (c : Cursor) : Option (List Char × Cursor) := do
  let (found, c) := c.span (isTagCharacter verbatim)
  if head.isEmpty && found.isEmpty then none
  else
    let found ← unescapeTag? (found.length + 1) found
    pure (head.tail ++ found, c)

/-- The handle and its expansion behind the name of their directive. -/
def tagDirective? (c : Cursor) : Option (Token × Cursor) := do
  let (handle, c) ← handle? (c.dropWhile isSpace)
  if handle.length > 1 && handle.getLast? ≠ some '!' then none
  else
    match c.rest with
    | d :: _ =>
      if isSpace d then
        let (expansion, c) ← tagText? true [] (c.dropWhile isSpace)
        if atGap c.rest then
          pure (.tagDirective (String.ofList handle) (String.ofList expansion), c)
        else none
      else none
    | [] => none

/-- A directive. -/
def directive? (c : Cursor) : Option (Token × Cursor) := do
  let (name, c) := c.next.span isWord
  if !atGap c.rest then none
  else
    let (token, c) ←
      if name == ['Y', 'A', 'M', 'L'] then version? c
      else if name == ['T', 'A', 'G'] then tagDirective? c
      else none
    pure (token, ← c.lineEnd?)

/-! ## Tokens with a name -/

/-- The name behind the mark of an anchor or an alias. -/
def anchorName? (c : Cursor) : Option (String × Cursor) :=
  let (name, c) := c.next.span isWord
  let ends := match c.rest with
    | [] => true
    | d :: _ => isGap d || ['?', ':', ',', ']', '}', '%', '@', '`'].contains d
  if name.isEmpty || !ends then none else some (String.ofList name, c)

/-- A tag between angle brackets. -/
def verbatimTag? (c : Cursor) : Option (Token × Cursor) := do
  let (suffix, c) ← tagText? true [] (c.skip 2)
  if c.isAt '>' then pure (.tag "" (String.ofList suffix), c.next) else none

/-- A tag of a handle and a suffix. What looks like a handle without a second mark belongs to the
suffix. -/
def shortTag? (c : Cursor) : Option (Token × Cursor) := do
  let (handle, c) ← handle? c
  if 1 < handle.length && handle.getLast? == some '!' then
    let (suffix, c) ← tagText? false [] c
    pure (.tag (String.ofList handle) (String.ofList suffix), c)
  else
    let (suffix, c) ← tagText? false handle c
    if suffix.isEmpty then pure (.tag "" "!", c) else pure (.tag "!" (String.ofList suffix), c)

/-- A tag. -/
def tag? (inFlow : Bool) (c : Cursor) : Option (Token × Cursor) := do
  let (token, c) ← if c.next.isAt '<' then verbatimTag? c else shortTag? c
  if atGap c.rest || (inFlow && c.isAt ',') then pure (token, c) else none

/-! ## One token -/

/-- The scan at its end. -/
def finish? (s : Scan) : Option Scan := do
  let s ← (s.closeBlocks (-1)).dropKey?
  pure (s.push .streamEnd)

/-- The scan behind the mark of a document. -/
def document? (s : Scan) (t : Token) : Option Scan := do
  let s ← (s.closeBlocks (-1)).dropKey?
  pure ({ s with allowsKey := false }.skip 3 |>.push t)

/-- The scan behind a directive. -/
def fetchDirective? (s : Scan) : Option Scan := do
  let s ← (s.closeBlocks (-1)).dropKey?
  let (token, cursor) ← directive? s.cursor
  pure ({ s with cursor, allowsKey := false }.push token)

/-- The scan behind an opening bracket. -/
def openFlow? (s : Scan) (t : Token) : Option Scan := do
  let s ← s.markKey?
  pure ({ s with keys := none :: s.keys, allowsKey := true }.skip 1 |>.push t)

/-- The scan behind a closing bracket. -/
def closeFlow? (s : Scan) (t : Token) : Option Scan := do
  let s ← s.dropKey?
  let keys := if s.inFlow then s.keys.tail else s.keys
  pure ({ s with keys, allowsKey := false }.skip 1 |>.push t)

/-- The scan behind a comma between brackets. -/
def flowEntry? (s : Scan) : Option Scan := do
  let s ← s.dropKey?
  pure ({ s with allowsKey := true }.skip 1 |>.push .flowEntry)

/-- The scan behind the mark of an entry of a block. -/
def blockEntry? (s : Scan) : Option Scan := do
  let s ←
    if s.inFlow then some s
    else if s.allowsKey then some (s.openBlock s.column none .blockSequenceStart)
    else none
  let s ← s.dropKey?
  pure ({ s with allowsKey := true }.skip 1 |>.push .blockEntry)

/-- The scan behind the mark of a key. -/
def keyMark? (s : Scan) : Option Scan := do
  let s ←
    if s.inFlow then some s
    else if s.allowsKey then some (s.openBlock s.column none .blockMappingStart)
    else none
  let s ← s.dropKey?
  pure ({ s with allowsKey := !s.inFlow }.skip 1 |>.push .key)

/-- The scan behind the colon of a value. If a key may have begun in this line, it has. -/
def valueMark? (s : Scan) : Option Scan := do
  let s ←
    match s.keys with
    | some place :: rest =>
      let s := { s with keys := none :: rest, allowsKey := false }.insert place.number .key
      some (s.openBlock place.cursor.column (some place.number) .blockMappingStart)
    | _ =>
      if s.inFlow then some { s with allowsKey := false }
      else if s.allowsKey then
        some { s.openBlock s.column none .blockMappingStart with allowsKey := true }
      else none
  pure (s.skip 1 |>.push .value)

/-- The scan behind a token that may begin a key. -/
def keyable? (s : Scan) (read? : Cursor → Option (Token × Cursor)) : Option Scan := do
  let s ← s.markKey?
  let (token, cursor) ← read? s.cursor
  pure ({ s with cursor, allowsKey := false }.push token)

/-- The scan behind a plain scalar. -/
def plain? (s : Scan) : Option Scan := do
  let s ← s.markKey?
  let (text, broken, cursor) ← Scalar.plain? s.inFlow (s.indent + 1) s.cursor
  pure ({ s with cursor, allowsKey := broken }.push (.scalar .plain text))

/-- The scan behind a block scalar. -/
def blockScalar? (s : Scan) (style : Style) : Option Scan := do
  let s ← s.dropKey?
  let (text, cursor) ← Scalar.block? (style == .literal) s.indent s.cursor
  pure ({ s with cursor, allowsKey := true }.push (.scalar style text))

/-- A character that cannot begin a plain scalar. -/
def isIndicator (c : Char) : Bool :=
  ['-', '?', ':', ',', '[', ']', '{', '}', '#', '&', '*', '!', '|', '>', '\'', '"', '%', '@',
    '`'].contains c

/-- A plain scalar begins with `c`, which is no tab where a key may begin. -/
def beginsPlain (inFlow : Bool) (c : Char) (rest : List Char) : Bool :=
  !(isIndicator c || isGap c) ||
    (c == '-' && !(match rest with
      | d :: _ => isSpace d
      | [] => false)) ||
    (!inFlow && (c == '?' || c == ':') && !atGap rest)

/-- The scan one token further, when a character other than a document mark comes next. -/
def fetchAt? (s : Scan) (c : Char) (rest : List Char) : Option Scan :=
  if s.cursor.column == 0 && c == '%' then s.fetchDirective?
  else if s.cursor.atMarker ['-', '-', '-'] then s.document? .documentStart
  else if s.cursor.atMarker ['.', '.', '.'] then s.document? .documentEnd
  else if c == '[' then s.openFlow? .flowSequenceStart
  else if c == '{' then s.openFlow? .flowMappingStart
  else if c == ']' then s.closeFlow? .flowSequenceEnd
  else if c == '}' then s.closeFlow? .flowMappingEnd
  else if c == ',' then s.flowEntry?
  else if c == '-' && atGap rest then s.blockEntry?
  else if c == '?' && (s.inFlow || atGap rest) then s.keyMark?
  else if c == ':' && (s.inFlow || atGap rest) then s.valueMark?
  else if c == '*' then s.keyable? fun c => (anchorName? c).map fun (n, c) => (.alias n, c)
  else if c == '&' then s.keyable? fun c => (anchorName? c).map fun (n, c) => (.anchor n, c)
  else if c == '!' then s.keyable? (tag? s.inFlow)
  else if c == '|' && !s.inFlow then s.blockScalar? .literal
  else if c == '>' && !s.inFlow then s.blockScalar? .folded
  else if c == '\'' then
    s.keyable? fun c => (Scalar.quoted? '\'' c).map fun (t, c) => (.scalar .singleQuoted t, c)
  else if c == '"' then
    s.keyable? fun c => (Scalar.quoted? '"' c).map fun (t, c) => (.scalar .doubleQuoted t, c)
  else if beginsPlain s.inFlow c rest then s.plain?
  else none

/-- All tokens from here on. Every token but the last takes a character from the text. -/
def run? : Nat → Scan → Option (Array Token)
  | 0, _ => none
  | fuel + 1, s => do
    let s ← (skipGaps (s.cursor.rest.length + 1) s).dropStale?
    let s := s.closeBlocks s.column
    match s.cursor.rest with
    | [] => (s.finish?).map (·.tokens)
    | c :: rest => run? fuel (← s.fetchAt? c rest)

end Scan

/-- The tokens of a text, unless it has characters or forms that YAML does not know. A mark of the
byte order at the beginning does not count. -/
def Token.ofText? (text : String) : Option (List Token) :=
  let s := text.toList
  let s := if s.head? == some '\ufeff' then s.tail else s
  if s.all isAllowed then
    (Scan.run? (s.length + 1) { cursor := { rest := unifyBreaks s } }).map (·.toList)
  else none

end Rollout.Yaml

import Rollout.Text.Basic

/-!
# Places in a YAML text

* The classes of characters that the grammar of YAML speaks of.
* `unifyBreaks`: a text in which every usual line break is a line feed.
* `Cursor`: a place in a text, with what comes next.
-/

namespace Rollout.Yaml

/-! ## Characters -/

/-- A character that ends a line. -/
def isBreak (c : Char) : Bool := c == '\n' || c == '\u2028' || c == '\u2029'

/-- A blank inside a line. -/
def isSpace (c : Char) : Bool := c == ' ' || c == '\t'

/-- A blank or the end of a line. -/
def isGap (c : Char) : Bool := isSpace c || isBreak c

/-- A character of names. -/
def isWord (c : Char) : Bool := c.isAlphanum || c == '_' || c == '-'

/-- A character that may stand in a text at all. -/
def isAllowed (c : Char) : Bool :=
  let n := c.toNat
  n == 0x09 || n == 0x0A || n == 0x0D || (0x20 ≤ n && n ≤ 0x7E) || n == 0x85 ||
    (0xA0 ≤ n && n ≤ 0xFFFD) || 0x10000 ≤ n

/-- The end of the text, a blank, or the end of a line comes next. -/
def atGap : List Char → Bool
  | [] => true
  | c :: _ => isGap c

/-- The text in which every line break but the two separators is a line feed. -/
def unifyBreaks : List Char → List Char
  | '\r' :: '\n' :: rest => '\n' :: unifyBreaks rest
  | '\r' :: rest => '\n' :: unifyBreaks rest
  | '\u0085' :: rest => '\n' :: unifyBreaks rest
  | c :: rest => c :: unifyBreaks rest
  | [] => []

/-! ## Places -/

/-- A place in a text. -/
structure Cursor where
  /-- What comes next. -/
  rest : List Char
  /-- The number of characters before. -/
  index : Nat := 0
  /-- The number of lines before. -/
  line : Nat := 0
  /-- The number of characters before in the same line. -/
  column : Nat := 0
  deriving Inhabited

namespace Cursor

/-- The place behind the next character. -/
def next (c : Cursor) : Cursor :=
  match c.rest with
  | [] => c
  | d :: rest =>
    if isBreak d then ⟨rest, c.index + 1, c.line + 1, 0⟩
    else ⟨rest, c.index + 1, c.line, c.column + 1⟩

/-- The place behind some characters. -/
def skip : Nat → Cursor → Cursor
  | 0, c => c
  | n + 1, c => skip n c.next

/-- The characters of some class that come next, and the place behind them. -/
def span (p : Char → Bool) (c : Cursor) : List Char × Cursor :=
  let found := c.rest.takeWhile p
  (found, c.skip found.length)

/-- The place behind the characters of some class that come next. -/
def dropWhile (p : Char → Bool) (c : Cursor) : Cursor := (c.span p).2

/-- A character comes next. -/
def isAt (c : Cursor) (d : Char) : Bool := c.rest.head? == some d

/-- A line break comes next. -/
def atBreak (c : Cursor) : Bool :=
  match c.rest with
  | [] => false
  | d :: _ => isBreak d

/-- The end of the text or of the line comes next. -/
def atLineEnd (c : Cursor) : Bool := c.rest.isEmpty || c.atBreak

/-- A line that begins with a word, which stands alone. -/
def atMarker (c : Cursor) (marker : List Char) : Bool :=
  c.column == 0 && marker.isPrefixOf c.rest && atGap (c.rest.drop marker.length)

/-- The beginning or the end of a document comes next. -/
def atDocumentMarker (c : Cursor) : Bool :=
  c.atMarker ['-', '-', '-'] || c.atMarker ['.', '.', '.']

/-- The end of a line behind blanks and perhaps a comment, if nothing else is there. -/
def lineEnd? (c : Cursor) : Option Cursor :=
  let c := c.dropWhile isSpace
  let c := if c.isAt '#' then c.dropWhile (!isBreak ·) else c
  if c.atLineEnd then some (if c.atBreak then c.next else c) else none

end Cursor

end Rollout.Yaml

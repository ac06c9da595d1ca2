import Rollout.Json.Basic
import Rollout.Text.Basic

/-!
# Reading JSON

`Json.parse?` reads one JSON text: a value, with blanks around it and nothing behind it. An escape
of half a surrogate pair stands for the replacement character.
-/

namespace Rollout.Json

namespace Reader

/-- The four blanks of JSON. -/
def isSpace (c : Char) : Bool := c == ' ' || c == '\t' || c == '\n' || c == '\r'

/-- The input without leading blanks. -/
def skip (s : List Char) : List Char := s.dropWhile isSpace

/-- Four hexadecimal digits. -/
def hex4? : List Char → Option (Nat × List Char)
  | a :: b :: c :: d :: rest => (Text.number? 16 [a, b, c, d]).map (·, rest)
  | _ => none

/-- The character of a code unit that is not half of a surrogate pair. -/
def unit (n : Nat) : Char := if n.isValidChar then Char.ofNat n else '\uFFFD'

/-- The character that a `\u` escape stands for, with what follows it. -/
def escapedUnit? (s : List Char) : Option (Char × List Char) := do
  let (high, rest) ← hex4? s
  if 0xD800 ≤ high ∧ high < 0xDC00 then
    match rest with
    | '\\' :: 'u' :: rest' =>
      let (low, rest'') ← hex4? rest'
      if 0xDC00 ≤ low ∧ low < 0xE000 then
        pure (Char.ofNat (0x10000 + (high - 0xD800) * 0x400 + (low - 0xDC00)), rest'')
      else pure ('\uFFFD', rest)
    | _ => pure ('\uFFFD', rest)
  else pure (unit high, rest)

/-- The characters up to the closing quote, last first, and what follows it. -/
def textTail? : Nat → List Char → List Char → Option (List Char × List Char)
  | 0, _, _ => none
  | _ + 1, _, [] => none
  | fuel + 1, done, c :: rest =>
    if c == '"' then some (done, rest)
    else if c == '\\' then
      match rest with
      | '"' :: rest => textTail? fuel ('"' :: done) rest
      | '\\' :: rest => textTail? fuel ('\\' :: done) rest
      | '/' :: rest => textTail? fuel ('/' :: done) rest
      | 'b' :: rest => textTail? fuel ('\x08' :: done) rest
      | 'f' :: rest => textTail? fuel ('\x0c' :: done) rest
      | 'n' :: rest => textTail? fuel ('\n' :: done) rest
      | 'r' :: rest => textTail? fuel ('\r' :: done) rest
      | 't' :: rest => textTail? fuel ('\t' :: done) rest
      | 'u' :: rest => do
        let (c, rest) ← escapedUnit? rest
        textTail? fuel (c :: done) rest
      | _ => none
    else if c.toNat < 0x20 then none
    else textTail? fuel (c :: done) rest

/-- The text behind an opening quote. -/
def text? (s : List Char) : Option (String × List Char) :=
  (textTail? (s.length + 1) [] s).map fun (done, rest) => (String.ofList done.reverse, rest)

/-- The leading digits, at least one, and what follows them. -/
def digits? (s : List Char) : Option (List Char × List Char) :=
  let ds := s.takeWhile Char.isDigit
  if ds.isEmpty then none else some (ds, s.dropWhile Char.isDigit)

/-- The fraction of a number, empty when there is none. -/
def fraction? : List Char → Option (Option (List Char) × List Char)
  | '.' :: rest => (digits? rest).map fun (ds, rest) => (some ds, rest)
  | s => some (none, s)

/-- The digits of an exponent with its sign. -/
def signedExponent? (s : List Char) : Option (Int × List Char) :=
  match s with
  | '-' :: rest => (digits? rest).map fun (ds, rest) => (-(Text.decimal ds : Int), rest)
  | '+' :: rest => (digits? rest).map fun (ds, rest) => ((Text.decimal ds : Int), rest)
  | s => (digits? s).map fun (ds, rest) => ((Text.decimal ds : Int), rest)

/-- The exponent of a number, if it has one. -/
def exponent? : List Char → Option (Option Int × List Char)
  | 'e' :: rest => (signedExponent? rest).map fun (e, rest) => (some e, rest)
  | 'E' :: rest => (signedExponent? rest).map fun (e, rest) => (some e, rest)
  | s => some (none, s)

/-- A number with further digits as long as it has room in 64 bits, and the digits left over. -/
def extend (n : Nat) : List Char → Nat × List Char
  | [] => (n, [])
  | c :: rest =>
    let next := n * 10 + Text.decimalValue c
    if next < UInt64.size then extend next rest else (n, c :: rest)

/-- A number without its sign. Digits that have no room are only counted. What has no room as an
integer of 64 bits is a decimal, and so is zero with a minus, which keeps its sign. -/
def magnitude? (negative : Bool) (s : List Char) : Option (Number × List Char) := do
  let (whole, rest) ← digits? s
  if whole.length > 1 ∧ whole.head? = some '0' then none
  else
    let (part, rest) ← fraction? rest
    let (power, rest) ← exponent? rest
    let (value, left) := extend 0 whole
    let fits := left.isEmpty && (!negative || (0 < value && value ≤ UInt64.size / 2))
    if part.isNone && power.isNone && fits then
      pure (.integer (if negative then -(value : Int) else value), rest)
    else
      let (digits, unused) := extend value (part.getD [])
      let places : Int := (part.getD []).length - unused.length
      pure (.decimal negative digits (left.length - places + power.getD 0), rest)

/-- A number. -/
def number? : List Char → Option (Number × List Char)
  | '-' :: rest => magnitude? true rest
  | s => magnitude? false s

/-- The input behind a given word. -/
def word? (word : List Char) (s : List Char) : Option (List Char) :=
  if word.isPrefixOf s then some (s.drop word.length) else none

mutual

/-- A value, with at most `fuel` nested calls. -/
def value? : Nat → List Char → Option (Json × List Char)
  | 0, _ => none
  | fuel + 1, s =>
    match skip s with
    | '"' :: rest => (text? rest).map fun (t, rest) => (.str t, rest)
    | '[' :: rest =>
      match skip rest with
      | ']' :: rest => some (.arr [], rest)
      | rest => (items? fuel rest).map fun (items, rest) => (.arr items, rest)
    | '{' :: rest =>
      match skip rest with
      | '}' :: rest => some (.obj [], rest)
      | rest => (fields? fuel rest).map fun (fields, rest) => (.obj fields, rest)
    | 't' :: rest => (word? ['r', 'u', 'e'] rest).map fun rest => (.bool true, rest)
    | 'f' :: rest => (word? ['a', 'l', 's', 'e'] rest).map fun rest => (.bool false, rest)
    | 'n' :: rest => (word? ['u', 'l', 'l'] rest).map fun rest => (.null, rest)
    | s => (number? s).map fun (n, rest) => (.number n, rest)

/-- The items of an array that is not empty, up to and with its closing bracket. -/
def items? : Nat → List Char → Option (List Json × List Char)
  | 0, _ => none
  | fuel + 1, s => do
    let (item, rest) ← value? fuel s
    match skip rest with
    | ',' :: rest => (items? fuel rest).map fun (items, rest) => (item :: items, rest)
    | ']' :: rest => pure ([item], rest)
    | _ => none

/-- The fields of an object that is not empty, up to and with its closing brace. -/
def fields? : Nat → List Char → Option (List (String × Json) × List Char)
  | 0, _ => none
  | fuel + 1, s =>
    match skip s with
    | '"' :: rest => do
      let (name, rest) ← text? rest
      match skip rest with
      | ':' :: rest =>
        let (item, rest) ← value? fuel rest
        match skip rest with
        | ',' :: rest =>
          (fields? fuel rest).map fun (fields, rest) => ((name, item) :: fields, rest)
        | '}' :: rest => pure ([(name, item)], rest)
        | _ => none
      | _ => none
    | _ => none

end

end Reader

/-- The value that a JSON text stands for. -/
def parse? (s : String) : Option Json :=
  let input := s.toList
  match Reader.value? (input.length + 1) input with
  | some (value, rest) => if (Reader.skip rest).isEmpty then some value else none
  | none => none

end Rollout.Json

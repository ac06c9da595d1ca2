import Rollout.Text.Basic
import Rollout.Time.Timestamp

/-!
# Reading moments

`Timestamp.parse?` reads a date, a time of day and a zone. It is lenient: numbers may be short and
may have blanks before them, the letters may be small, and a blank may part date and time.
-/

namespace Rollout.Timestamp

namespace Reader

/-- A text without the blanks at its beginning. -/
def skip (s : List Char) : List Char := s.dropWhile Text.isBlank

/-- The digits at the beginning of a text, at most `limit` of them, and the rest. -/
def digits (limit : Nat) : List Char → List Char × List Char
  | [] => ([], [])
  | c :: rest =>
    match limit with
    | 0 => ([], c :: rest)
    | limit + 1 =>
      if c.isDigit then
        let (found, rest) := digits limit rest
        (c :: found, rest)
      else ([], c :: rest)

/-- A number of at most `limit` digits, with blanks before it. -/
def number? (limit : Nat) (s : List Char) : Option (Nat × List Char) :=
  match digits limit (skip s) with
  | ([], _) => none
  | (found, rest) => some (Text.decimal found, rest)

/-- A year: at most four digits, or any number behind a sign. -/
def year? (s : List Char) : Option (Int × List Char) :=
  match skip s with
  | '-' :: rest => (signed? rest).map fun (n, rest) => (-(n : Int), rest)
  | '+' :: rest => (signed? rest).map fun (n, rest) => ((n : Int), rest)
  | rest => (number? 4 rest).map fun (n, rest) => ((n : Int), rest)
where
  /-- The number behind a sign. -/
  signed? (s : List Char) : Option (Nat × List Char) :=
    match digits s.length s with
    | ([], _) => none
    | (found, rest) => some (Text.decimal found, rest)

/-- A character that has to come next, with blanks before it. -/
def expect? (c : Char) (s : List Char) : Option (List Char) :=
  match skip s with
  | d :: rest => if d == c then some rest else none
  | [] => none

/-- The nanoseconds behind a point, if there is one; digits behind the ninth do not count. -/
def fraction? : List Char → Option (Nat × List Char)
  | '.' :: s =>
    match digits 9 s with
    | ([], _) => none
    | (found, rest) =>
      some (Text.decimal found * Nat.pow 10 (9 - found.length), rest.dropWhile Char.isDigit)
  | s => some (0, s)

/-- Exactly two digits. -/
def twoDigits? : List Char → Option (Nat × List Char)
  | a :: b :: rest => if a.isDigit && b.isDigit then some (Text.decimal [a, b], rest) else none
  | _ => none

/-- The hours and minutes of an offset, in minutes. -/
def hoursAndMinutes? (s : List Char) : Option (Nat × List Char) := do
  let (hours, s) ← twoDigits? s
  let (minutes, s) ← twoDigits? (s.dropWhile fun c => c == ':' || Text.isBlank c)
  if hours < 24 ∧ minutes < 60 then pure (hours * 60 + minutes, s) else none

/-- How many minutes a zone is ahead. -/
def zone? (s : List Char) : Option (Int × List Char) :=
  match skip s with
  | 'Z' :: rest | 'z' :: rest => some (0, rest)
  | '+' :: rest => (hoursAndMinutes? rest).map fun (n, rest) => ((n : Int), rest)
  | '-' :: rest | '\u2212' :: rest =>
    (hoursAndMinutes? rest).map fun (n, rest) => (-(n : Int), rest)
  | a :: b :: c :: rest =>
    if [a, b, c].map Char.toUpper == ['U', 'T', 'C'] then some (0, rest) else none
  | _ => none

/-- What parts a date from a time of day. -/
def isSeparator (c : Char) : Bool := c == 'T' || c == 't' || c == ' '

end Reader

open Reader in
/-- Reads a moment. -/
def parse? (text : String) : Option Timestamp := do
  let (year, s) ← year? text.toList
  let (month, s) ← number? 2 (← expect? '-' s)
  let (day, s) ← number? 2 (← expect? '-' s)
  let s ← match s with
    | c :: rest => if isSeparator c then some rest else none
    | [] => none
  let (hour, s) ← number? 2 s
  let (minute, s) ← number? 2 (← expect? ':' s)
  let (second, s) ← number? 2 (← expect? ':' s)
  let (nanos, s) ← fraction? s
  let (offset, s) ← zone? s
  if s.all Text.isBlank then ofCivil? year month day hour minute second nanos offset else none

end Rollout.Timestamp

import Rollout.Error
import Rollout.Text.Basic

/-!
# Lookups inside text

A variable holds plain text with lookups in it: `$`, an opening brace, a kind, an argument, a
closing brace.

* `Token.scan`: the pieces of a text, or the fault of the first bad lookup.
* `Token.write`: a piece as it is written.
* `tokenize`: the pieces of a text, with the fault as an error that shows the whole text.
* `splitOutput`: the stack and the output that the argument of an `output` lookup names.
* `outputStacks`: the stacks whose outputs a text reads.
-/

namespace Rollout

/-- A piece of a variable. -/
inductive Token where
  /-- Plain text. -/
  | literal (text : String)
  /-- A lookup of a kind, with its argument. -/
  | lookup (kind argument : String)
  deriving DecidableEq, Repr, Inhabited

namespace Token

/-- What opens a lookup. -/
def opener : List Char := ['$', '{']

/-- What closes a lookup. -/
def closer : List Char := ['}']

/-- What can be wrong with a lookup. -/
inductive Fault where
  /-- It is never closed. -/
  | unterminated
  /-- It holds blanks only. -/
  | empty
  deriving DecidableEq, Repr

/-- Plain text as a piece, or no piece if there is no text. -/
def plain (text : List Char) : List Token :=
  if text.isEmpty then [] else [.literal (String.ofList text)]

/-- A lookup by what stands between its braces: the kind is the first word, and the argument is the
rest without the blanks around it. -/
def ofInner (inner : List Char) : Except Fault Token :=
  let words := Text.trim inner
  if words.isEmpty then .error .empty
  else .ok (.lookup (String.ofList (Text.firstWord words)) (String.ofList (Text.afterWord words)))

/-- The pieces of a text in order. -/
def scan (s : List Char) : Except Fault (List Token) :=
  match _hopen : Text.cut? opener s with
  | none => .ok (plain s)
  | some (before, rest) =>
    match _hclose : Text.cut? closer rest with
    | none => .error .unterminated
    | some (inner, after) => do
      let found ← ofInner inner
      let tokens ← scan after
      pure (plain before ++ found :: tokens)
termination_by s.length
decreasing_by
  exact Nat.lt_trans (Text.length_after_lt (by decide) _hclose)
    (Text.length_after_lt (by decide) _hopen)

/-- A piece as it is written. -/
def write : Token → List Char
  | .literal text => text.toList
  | .lookup kind argument =>
    opener ++ kind.toList ++ (if argument.isEmpty then [] else ' ' :: argument.toList) ++ closer

/-- The error for a fault in a text. -/
def Fault.toError (text : String) : Fault → Error
  | .unterminated => .lookup "parse" ("unterminated lookup in '" ++ text ++ "'")
  | .empty => .lookup "parse" ("empty lookup in '" ++ text ++ "'")

end Token

/-- The pieces of a text in order. -/
def tokenize (text : String) : Except Error (List Token) :=
  (Token.scan text.toList).mapError (Token.Fault.toError text)

/-- The stack and the output named by `stack::Output`, neither of them blank. -/
def splitOutput (argument : String) : Except Error (String × String) :=
  match Text.cutString? "::" argument with
  | some (stack, key) =>
    if Text.isBlankText stack || Text.isBlankText key then .error (malformed argument)
    else .ok (Text.strip stack, Text.strip key)
  | none => .error (malformed argument)
where
  /-- The error for an argument of another form. -/
  malformed (argument : String) : Error :=
    .lookup "output" ("expected 'stack::OutputName', got '" ++ argument ++ "'")

/-- Adds a stack to a list unless it is there. -/
def addOnce (names : List String) (stack : String) : List String :=
  if stack ∈ names then names else names ++ [stack]

/-- The stacks named by the output lookups among some tokens, in order of appearance. -/
def stacksOfTokens (tokens : List Token) : Except Error (List String) :=
  tokens.foldlM (fun names token =>
    match token with
    | .lookup "output" argument => (splitOutput argument).map fun (stack, _) => addOnce names stack
    | _ => .ok names) []

/-- The stacks whose outputs a text reads, each once, in order of appearance. -/
def outputStacks (text : String) : Except Error (List String) := do
  stacksOfTokens (← tokenize text)

end Rollout

import Rollout.Yaml.Node

/-!
# Values of YAML nodes

What a node is worth as a text, a truth value, a number, a list, or a record. Only a plain scalar
can be a truth value or a number, or a literal one whose tag says so.
-/

namespace Rollout.Yaml.Node

/-- The tags of the basic types. -/
def coreTag (name : String) : String := "tag:yaml.org,2002:" ++ name

/-- The text of any scalar. -/
def text? : Node → Option String
  | scalar _ _ text => some text
  | _ => none

/-- The text of a scalar that may be something else than text. -/
def wordOf? (tagName : String) : Node → Option (List Char)
  | scalar .plain _ text => some text.toList
  | scalar .literal (some tag) text => if tag = coreTag tagName then some text.toList else none
  | _ => none

/-- A truth value. -/
def bool? (node : Node) : Option Bool := do
  let word ← node.wordOf? "bool"
  if ["true", "True", "TRUE"].any (·.toList == word) then some true
  else if ["false", "False", "FALSE"].any (·.toList == word) then some false
  else none

/-! ## Numbers -/

/-- The base that two characters announce. -/
def base? : List Char → Option (Nat × List Char)
  | '0' :: 'x' :: rest => some (16, rest)
  | '0' :: 'o' :: rest => some (8, rest)
  | '0' :: 'b' :: rest => some (2, rest)
  | _ => none

/-- A natural number: perhaps a plus, and digits of a base. A decimal one does not begin with a zero
unless it is zero. -/
def natural? (word : List Char) : Option Nat :=
  let digits := if word.head? == some '+' then word.tail else word
  match base? digits with
  | some (base, digits) => Text.number? base digits
  | none =>
    if 1 < digits.length && digits.head? == some '0' then none else Text.number? 10 digits

/-- A natural number below a bound. -/
def nat? (bound : Nat) (node : Node) : Option Nat := do
  let n ← natural? (← node.wordOf? "int")
  if n < bound then some n else none

/-- The exponent of a decimal. -/
def exponent? : List Char → Option Int
  | '-' :: digits => (Text.number? 10 digits).map fun n => -(n : Int)
  | '+' :: digits => (Text.number? 10 digits).map fun n => (n : Int)
  | digits => (Text.number? 10 digits).map fun n => (n : Int)

/-- The number nearest to some digits times a power of ten. Far beyond all floats the power is as
good as any. -/
def scaled (digits : Nat) (exponent : Int) : Float :=
  Float.ofScientific digits (exponent < 0) (min exponent.natAbs 100000)

/-- A decimal without its sign: digits with or without a point, at least one, and perhaps an
exponent. -/
def decimal? (word : List Char) : Option Float := do
  let whole := word.takeWhile Char.isDigit
  let rest := word.dropWhile Char.isDigit
  let (part, rest) := match rest with
    | '.' :: rest => (rest.takeWhile Char.isDigit, rest.dropWhile Char.isDigit)
    | rest => ([], rest)
  if whole.isEmpty && part.isEmpty then none
  else
    let power ← match rest with
      | [] => some 0
      | 'e' :: rest | 'E' :: rest => exponent? rest
      | _ => none
    some (scaled (Text.decimal (whole ++ part)) (power - part.length))

/-- A decimal with or without a minus, if a float is large enough for it. -/
def finite? (word : List Char) : Option Float := do
  let x ← match word with
    | '-' :: word => (decimal? word).map fun x => -x
    | word => decimal? word
  if x.isFinite then some x else none

/-- One of some words. -/
def isOneOf (words : List String) (word : List Char) : Bool := words.any (·.toList == word)

/-- A float: infinite, undefined, or a decimal. -/
def float? (node : Node) : Option Float := do
  let word ← node.wordOf? "float"
  let unsigned := if word.head? == some '+' then word.tail else word
  if isOneOf [".inf", ".Inf", ".INF"] unsigned then some (1.0 / 0.0)
  else if isOneOf ["-.inf", "-.Inf", "-.INF"] word then some (-1.0 / 0.0)
  else if isOneOf [".nan", ".NaN", ".NAN"] word then some (0.0 / 0.0)
  else if unsigned.length < word.length && unsigned.head?.any fun c => c == '+' || c == '-' then
    none
  else finite? unsigned

/-! ## Structure -/

/-- The node says that there is nothing, says that there is something, or is wrong about it. -/
def presence? : Node → Option Bool
  | scalar .plain (some tag) text =>
    if tag = coreTag "null" then
      if ["null", "Null", "NULL", "~"].contains text then some false else none
    else some true
  | scalar .plain none text => some !(["", "null", "Null", "NULL", "~"].contains text)
  | _ => some true

/-- The node is not there. -/
def isAbsent : Node → Bool
  | scalar .plain _ text => text.isEmpty
  | _ => false

/-- The items of a sequence. What is not there has none. -/
def items? (node : Node) : Option (List Node) :=
  match node with
  | sequence items => some items
  | node => if node.isAbsent then some [] else none

/-- The entries of a mapping, with their keys as texts. What is not there has none. -/
def entries? (node : Node) : Option (List (String × Node)) :=
  match node with
  | mapping entries => entries.mapM fun (key, value) => key.text?.map (·, value)
  | node => if node.isAbsent then some [] else none

/-- The fields of a record: of the given names, none may occur twice. -/
def fields? (names : List String) (node : Node) : Option (String → Option Node) := do
  let entries ← node.entries?
  if names.all fun name => (entries.filter (·.1 == name)).length ≤ 1 then
    some fun name => entries.lookup name
  else none

end Rollout.Yaml.Node

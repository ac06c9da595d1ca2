import Rollout.Data.Table

/-!
# JSON values

* `Json`: the values. A number keeps apart what was written as an integer and what was written
  with a fraction or an exponent, since a reader of integers takes only the first.
* `Json.field?`, `Json.text?` and their siblings: views that fail on a value of another kind.
* `Json.ofTable` and `Json.textTable?`: a table as an object with its fields in the order of the
  keys, and the table of an object whose fields are all texts.
* `Json.field`, `Json.textField` and their siblings: lenient views, which never fail. What is
  missing, or of another kind than it is looked at as, counts as nothing.
-/

namespace Rollout

/-- A JSON number as it is read. -/
inductive Json.Number where
  /-- An integer. -/
  | integer (value : Int)
  /-- The decimal `digits * 10 ^ exponent`, with its sign. -/
  | decimal (negative : Bool) (digits : Nat) (exponent : Int)
  deriving DecidableEq, Repr, Inhabited

/-- A JSON value; the fields of an object stay in their order. -/
inductive Json where
  | null
  | bool (value : Bool)
  | number (value : Json.Number)
  | str (value : String)
  | arr (items : List Json)
  | obj (fields : List (String × Json))
  deriving Repr, Inhabited

namespace Json

/-- The float nearest to a power of ten. -/
def powerOfTen (n : Nat) : Float := Float.ofScientific 1 false n

/-- A float multiplied by a power of ten. -/
def multiplyByTens (x : Float) (n : Nat) : Float :=
  if n ≤ 308 || x == 0 then x * powerOfTen (min n 308) else 1.0 / 0.0

/-- A float divided by a power of ten, in steps if no float is as large as the power. -/
def divideByTens (x : Float) (n : Nat) : Float :=
  if _h : n ≤ 308 then x / powerOfTen n
  else if x == 0 then x
  else divideByTens (x / powerOfTen 308) (n - 308)
termination_by n

/-- The float of a number. The digits of a decimal become a float before they are multiplied or
divided by the power of ten, so the result is rounded twice. -/
def Number.toFloat : Number → Float
  | .integer n =>
    let magnitude := Float.ofNat n.natAbs
    if n < 0 then -magnitude else magnitude
  | .decimal negative digits exponent =>
    let magnitude :=
      match exponent with
      | .ofNat n => multiplyByTens (Float.ofNat digits) n
      | .negSucc n => divideByTens (Float.ofNat digits) (n + 1)
    if negative then -magnitude else magnitude

/-- A natural number as a JSON value. -/
def nat (n : Nat) : Json := .number (.integer n)

/-- An optional value, `null` when there is none. -/
def ofOption (encode : α → Json) : Option α → Json
  | none => .null
  | some a => encode a

/-- A list of texts. -/
def ofTexts (texts : List String) : Json := .arr (texts.map .str)

/-- The value is `null`. -/
def isNull : Json → Bool
  | .null => true
  | _ => false

/-- The text of a string. -/
def text? : Json → Option String
  | .str s => some s
  | _ => none

/-- The truth value of a Boolean. -/
def bool? : Json → Option Bool
  | .bool b => some b
  | _ => none

/-- An integer from `0` up to and without `bound`. -/
def nat? (bound : Nat) : Json → Option Nat
  | .number (.integer (.ofNat n)) => if n < bound then some n else none
  | _ => none

/-- Any number, read as a float. -/
def float? : Json → Option Float
  | .number n => some n.toFloat
  | _ => none

/-- The items of an array. -/
def items? : Json → Option (List Json)
  | .arr items => some items
  | _ => none

/-- The value of the field `name` of an object. -/
def field? (name : String) : Json → Option Json
  | .obj fields => fields.lookup name
  | _ => none

/-! ## Tables -/

/-- A table as an object. -/
def ofTable (encode : β → Json) (t : Table β) : Json :=
  .obj (t.toList.map fun (k, v) => (k, encode v))

/-- A table of texts as an object. -/
def ofTextTable (t : Table String) : Json := ofTable .str t

/-- The table of an object whose fields are all texts; of equal names the last wins. -/
def textTable? : Json → Option (Table String)
  | .obj fields =>
    (fields.mapM fun (e : String × Json) => e.2.text?.map (e.1, ·)).map Table.ofList
  | _ => none

/-! ## Lenient views -/

/-- The value of a field, `null` without one. -/
def field (input : Json) (name : String) : Json := (input.field? name).getD .null

/-- The text in a field, if there is one. -/
def textField? (input : Json) (name : String) : Option String := (field input name).text?

/-- The text in a field, or the empty text. -/
def textField (input : Json) (name : String) : String := (textField? input name).getD ""

/-- The truth value in a field, or false. -/
def flagField (input : Json) (name : String) : Bool := ((field input name).bool?).getD false

/-- The natural number of 64 bits in a field, if there is one. -/
def natField? (input : Json) (name : String) : Option Nat := (field input name).nat? UInt64.size

/-- The natural number in a field, or zero. -/
def natField (input : Json) (name : String) : Nat := (natField? input name).getD 0

/-- The items of the array in a field. -/
def listField (input : Json) (name : String) : List Json := ((field input name).items?).getD []

/-- The texts among the items of an array. -/
def texts (value : Json) : List String := ((value.items?).getD []).filterMap text?

/-- The texts among the items of the array in a field. -/
def textsField (input : Json) (name : String) : List String := texts (field input name)

/-- The fields of an object. -/
def fields : Json → List (String × Json)
  | .obj fields => fields
  | _ => []

/-- The fields of an object that are texts. -/
def textFields (value : Json) : List (String × String) :=
  (fields value).filterMap fun (name, item) => (item.text?).map (name, ·)

/-- The table of the fields of an object that are texts. -/
def textTable (value : Json) : Table String := Table.ofList (textFields value)

end Json

end Rollout

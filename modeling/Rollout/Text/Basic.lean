/-!
# Pieces of text

A character is *blank* when Unicode gives it the property `White_Space`. Trimming and splitting
into words go by that property.

* `isBlank`: the twenty-five blank characters. `trim`: a text without the blanks at its two ends.
* `firstWord` and `afterWord`: the text up to the first blank, and the trimmed text behind it.
* `cut?`: the text before and after the first occurrence of a separator.
* `eq_append_of_cut?`: nothing is lost, so what lies behind the cut is shorter than the text.
* `decimal` and `number?`: the number that some digits are.
* `hexDigit` and `hex`: a digit of base sixteen in lower case, and the last digits of a number.
-/

namespace Rollout.Text

/-! ## Blanks -/

/-- The characters with the property `White_Space`. -/
def isBlank (c : Char) : Bool :=
  let n := c.toNat
  (9 ≤ n && n ≤ 13) || n == 0x20 || n == 0x85 || n == 0xA0 || n == 0x1680 ||
    (0x2000 ≤ n && n ≤ 0x200A) || n == 0x2028 || n == 0x2029 || n == 0x202F || n == 0x205F ||
    n == 0x3000

/-- The text without its leading blanks. -/
def trimStart (s : List Char) : List Char := s.dropWhile isBlank

/-- The text without its trailing blanks. -/
def trimEnd (s : List Char) : List Char := (s.reverse.dropWhile isBlank).reverse

/-- The text without the blanks at its two ends. -/
def trim (s : List Char) : List Char := trimEnd (trimStart s)

/-- The text up to its first blank. -/
def firstWord (s : List Char) : List Char := s.takeWhile (!isBlank ·)

/-- What follows the first blank, trimmed. -/
def afterWord (s : List Char) : List Char := trim (s.dropWhile (!isBlank ·))

/-- `trim` on strings. -/
def strip (s : String) : String := String.ofList (trim s.toList)

/-- Only blanks, or nothing at all. -/
def isBlankText (s : String) : Bool := s.toList.all isBlank

/-! ## Cutting at a separator -/

/-- The text before and after the first occurrence of `sep`. -/
def cut? (sep : List Char) : List Char → Option (List Char × List Char)
  | [] => if sep.isEmpty then some ([], []) else none
  | c :: rest =>
    if sep.isPrefixOf (c :: rest) then some ([], (c :: rest).drop sep.length)
    else (cut? sep rest).map fun (before, after) => (c :: before, after)

/-- The two sides of a cut, joined by the separator, are the text. -/
theorem eq_append_of_cut? {sep s before after : List Char}
    (h : cut? sep s = some (before, after)) : s = before ++ sep ++ after := by
  induction s generalizing before after with
  | nil =>
    simp only [cut?, List.isEmpty_iff] at h
    split at h
    · next hs => cases h; simp [hs]
    · cases h
  | cons c rest ih =>
    rw [cut?] at h
    split at h
    · next hp =>
      cases h
      obtain ⟨t, ht⟩ := List.isPrefixOf_iff_prefix.1 hp
      simp [← ht]
    · obtain ⟨⟨b, a⟩, hb, he⟩ := Option.map_eq_some_iff.1 h
      cases he
      simp [ih hb]

/-- The text behind a separator that is not empty is shorter than the whole. -/
theorem length_after_lt {sep s before after : List Char} (hs : 0 < sep.length)
    (h : cut? sep s = some (before, after)) : after.length < s.length := by
  rw [eq_append_of_cut? h]
  simp
  omega

/-- `cut?` on strings. -/
def cutString? (sep : String) (s : String) : Option (String × String) :=
  (cut? sep.toList s.toList).map fun (before, after) => (String.ofList before, String.ofList after)

/-! ## Digits -/

/-- What a digit is worth, if it is one of the base. -/
def digitValue? (base : Nat) (c : Char) : Option Nat :=
  let value :=
    if '0' ≤ c ∧ c ≤ '9' then c.toNat - 48
    else if 'a' ≤ c ∧ c ≤ 'f' then c.toNat - 87
    else if 'A' ≤ c ∧ c ≤ 'F' then c.toNat - 55
    else base
  if value < base then some value else none

/-- What a character is worth as a decimal digit. -/
def decimalValue (c : Char) : Nat := c.toNat - 48

/-- The number that some decimal digits are. -/
def decimal (digits : List Char) : Nat := digits.foldl (fun n c => n * 10 + decimalValue c) 0

/-- The number that some digits of a base are; none if there is no digit, or something else. -/
def number? (base : Nat) (digits : List Char) : Option Nat :=
  if digits.isEmpty then none
  else digits.foldlM (fun n c => (digitValue? base c).map (n * base + ·)) 0

/-- A digit of base sixteen. -/
def hexDigit (n : Nat) : Char := Char.ofNat (if n < 10 then 48 + n else 87 + n)

/-- The last digits of a number in base sixteen, as many as `width` says. -/
def hex (width n : Nat) : List Char :=
  (List.range width).reverse.map fun i => hexDigit ((n >>> (4 * i)) % 16)

end Rollout.Text

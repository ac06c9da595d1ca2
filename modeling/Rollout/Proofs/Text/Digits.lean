import Mathlib.Data.List.Basic
import Rollout.Text.Basic

/-!
# Numbers in digits

* `decimal_toDigits`: the digits of a number are read as this number. So two numbers have different
  digits (`toDigits_inj`).
* `decimal_replicate_zero_append`: zeros before them do not matter.
* `isDigit_of_mem_toDigits`: they are digits, and nothing else.
-/

namespace Rollout.Text

theorem decimal_eq (digits : List Char) : decimal digits = Nat.ofDigitChars 10 digits 0 := by
  rw [Nat.ofDigitChars_eq_foldl]
  unfold decimal decimalValue
  congr 1
  funext n c
  rw [Nat.mul_comm]
  rfl

/-- The digits of a number are read as this number. -/
@[simp] theorem decimal_toDigits (n : Nat) : decimal (Nat.toDigits 10 n) = n := by
  rw [decimal_eq, Nat.ofDigitChars_ten_toDigits]

theorem toDigits_inj {m n : Nat} : Nat.toDigits 10 m = Nat.toDigits 10 n ↔ m = n := by
  constructor
  · intro h
    rw [← decimal_toDigits m, h, decimal_toDigits]
  · rintro rfl
    rfl

theorem decimal_replicate_zero_append (k : Nat) (digits : List Char) :
    decimal (List.replicate k '0' ++ digits) = decimal digits := by
  rw [decimal_eq, decimal_eq, Nat.ofDigitChars_append, Nat.ofDigitChars_replicate_zero,
    Nat.mul_zero]

theorem isDigit_of_mem_toDigits {n : Nat} {c : Char} (h : c ∈ Nat.toDigits 10 n) :
    c.isDigit = true :=
  Nat.isDigit_of_mem_toDigits (by decide) (by decide) h

/-- What is no digit does not come up among the digits of a number. -/
theorem not_mem_toDigits {n : Nat} {c : Char} (hc : c.isDigit = false) :
    c ∉ Nat.toDigits 10 n := by
  intro h
  rw [isDigit_of_mem_toDigits h] at hc
  cases hc

end Rollout.Text

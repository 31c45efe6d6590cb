import TemplateCompiler.Number.Literal
import Mathlib.Data.List.Induction
import Mathlib.Data.Nat.Digits.Defs

/-!
# Decimal numbers

Digits are no letters.  Decimal digits stand for a number, the last of them for its
ones.  Readers go through them from the first to the last, and come to the same number.
-/

namespace TemplateCompiler

section Digits

variable {c : Char}

theorem not_isAlpha_of_isDigit (digit : c.isDigit = true) : c.isAlpha = false := by
  have notAbove : c.toNat ≤ 57 := (Char.isDigit_iff_toNat.1 digit).2
  change (decide (65 ≤ c.toNat ∧ c.toNat ≤ 90) ||
    (decide (97 ≤ c.toNat) && decide (c.toNat ≤ 122))) = false
  simp only [Bool.or_eq_false_iff, Bool.and_eq_false_iff, decide_eq_false_iff_not]
  omega

theorem toLower_of_isDigit (digit : c.isDigit = true) : c.toLower = c := by
  have notAbove : c.toNat ≤ 57 := (Char.isDigit_iff_toNat.1 digit).2
  refine dif_neg fun upper => ?_
  have atLeast : 65 ≤ c.toNat := upper.1
  omega

theorem ne_of_isDigit {other : Char} (digit : c.isDigit = true)
    (notDigit : other.isDigit = false) : c ≠ other := by
  rintro rfl
  rw [digit] at notDigit
  contradiction

end Digits

/-- The number that decimal digits stand for. -/
def decimal (digits : List Char) : Nat :=
  Nat.ofDigits 10 (digits.reverse.map fun digit => digit.toNat - '0'.toNat)

theorem decimal_append_singleton (digits : List Char) (last : Char) :
    decimal (digits ++ [last]) = decimal digits * 10 + (last.toNat - '0'.toNat) := by
  rw [decimal, List.reverse_append, List.reverse_singleton, List.singleton_append, List.map_cons,
    Nat.ofDigits_cons, ← decimal, Nat.mul_comm, Nat.add_comm]

theorem foldl_digits (digits : List Char) :
    digits.foldl (fun value digit => value * 10 + (digit.toNat - '0'.toNat)) 0 =
      decimal digits := by
  induction digits using List.reverseRecOn with
  | nil => rfl
  | append_singleton digits last ih =>
      rw [List.foldl_append, ih, decimal_append_singleton, List.foldl_cons, List.foldl_nil]

theorem NumberLiteral.digitsValue_eq (digits : List Char) : digitsValue digits = decimal digits :=
  foldl_digits digits

end TemplateCompiler

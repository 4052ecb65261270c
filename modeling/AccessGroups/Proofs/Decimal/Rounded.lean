import AccessGroups.Decimal.Numeral
import AccessGroups.Decimal.Rounded

/-!
What rounding keeps. A rounded quotient is at most half a unit away from the quotient, and even where it is
just that far away. The digits of a number in positional form stand for the rounded number, with as many of
them behind the point as are asked for.
-/

set_option autoImplicit false

namespace AccessGroups.Decimal

section

variable {num den : Nat}

theorem nearest_near (positive : 0 < den) :
    2 * num ≤ 2 * (den * nearest num den) + den ∧ 2 * (den * nearest num den) ≤ 2 * num + den := by
  have parts := Nat.div_add_mod num den
  have small := Nat.mod_lt num positive
  simp only [nearest]
  split
  case isTrue up =>
    have least : den ≤ 2 * (num % den) := by
      simp only [Bool.or_eq_true, Bool.and_eq_true, decide_eq_true_iff, beq_iff_eq] at up
      omega
    rw [Nat.mul_add, Nat.mul_one]
    omega
  case isFalse down =>
    have most : 2 * (num % den) ≤ den := by
      simp only [Bool.or_eq_true, decide_eq_true_iff] at down
      omega
    omega

theorem nearest_even (positive : 0 < den)
    (tie : 2 * num = 2 * (den * nearest num den) + den ∨ 2 * (den * nearest num den) = 2 * num + den) :
    nearest num den % 2 = 0 := by
  have parts := Nat.div_add_mod num den
  have small := Nat.mod_lt num positive
  simp only [nearest] at tie ⊢
  have half : 2 * (num % den) = den := by
    split at tie
    · rw [Nat.mul_add, Nat.mul_one] at tie
      omega
    · omega
  simp only [half, Nat.lt_irrefl, decide_false, Bool.false_or, beq_self_eq_true, Bool.true_and, beq_iff_eq]
  split <;> omega

end

theorem nearest_one (n : Nat) : nearest n 1 = n := by
  simp [nearest, Nat.mod_one]

/-- A whole number of at most 53 bits is a number of 64 bits itself. -/
theorem Reading.ofInt?_of_lt {n : Int} (small : n.natAbs < twoTo 53) :
    Reading.ofInt? n = some (.finite (decide (n < 0)) n.natAbs 0) := by
  by_cases zero : n.natAbs = 0
  · obtain rfl : n = 0 := Int.natAbs_eq_zero.mp zero
    rfl
  · have bits : n.natAbs.log2 < 53 := (Nat.log2_lt zero).mpr small
    have unshifted : n.natAbs.log2 + 1 - 53 = 0 := by omega
    have same : nearest n.natAbs (twoTo 0) = n.natAbs := nearest_one _
    have within : n.natAbs.log2 + 0 < 1024 := by omega
    simp only [Reading.ofInt?, unshifted, same, if_pos within]
    rfl

theorem le_length_leastDigits (base least n : Nat) : least ≤ (leastDigits base least n).length := by
  simp only [leastDigits, List.length_append, List.length_replicate]
  omega

theorem digitsValue_leastDigits (least n : Nat) : digitsValue (leastDigits 10 least n) = n := by
  have value (ds : List Char) : digitsValue ds = Nat.ofDigitChars 10 ds 0 := rfl
  rw [value, leastDigits, Nat.ofDigitChars_append, Nat.ofDigitChars_replicate_zero, Nat.mul_zero,
    Nat.ofDigitChars_toDigits (by decide) (by decide)]

namespace Scaled

variable (x : Scaled)

theorem overTenPow_pos (place : Int) : 0 < (x.overTenPow place).2 :=
  Nat.mul_pos (Nat.two_pow_pos _) (Nat.pow_pos (by decide))

/-- A number rounded to a place differs from the number by at most half a unit of the place. -/
theorem roundedAt_near (place : Int) :
    2 * (x.overTenPow place).1 ≤
        2 * ((x.overTenPow place).2 * x.roundedAt place) + (x.overTenPow place).2 ∧
      2 * ((x.overTenPow place).2 * x.roundedAt place) ≤
        2 * (x.overTenPow place).1 + (x.overTenPow place).2 :=
  nearest_near (x.overTenPow_pos place)

theorem fixed_digits (keep : Bool) (places : Nat) :
    ∃ whole fraction, x.fixed keep places = pointed keep whole fraction ∧ whole ≠ [] ∧
      fraction.length = places ∧ digitsValue (whole ++ fraction) = x.roundedAt (-places) := by
  have long := le_length_leastDigits 10 (places + 1) (x.roundedAt (-places))
  refine ⟨_, _, rfl, ?_, ?_, ?_⟩
  · rw [ne_eq, List.take_eq_nil_iff, not_or]
    exact ⟨by omega, List.ne_nil_of_length_pos (by omega)⟩
  · rw [List.length_drop]
    omega
  · rw [List.take_append_drop, digitsValue_leastDigits]

end Scaled

end AccessGroups.Decimal

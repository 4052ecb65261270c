import AccessGroups.Decimal.Binary64

/-!
Whole numbers among the binary floating-point numbers. A finite number is a multiple of the least
positive one, and that multiple determines the pattern up to its sign. Two numbers that equal the same
integer are therefore equal.
-/

set_option autoImplicit false

namespace AccessGroups.Decimal

theorem twoTo_add (m n : Nat) : twoTo (m + n) = twoTo m * twoTo n := Nat.pow_add 2 m n

theorem twoTo_pos (n : Nat) : 0 < twoTo n := Nat.two_pow_pos n

theorem twoTo_le {m n : Nat} (ordered : m ≤ n) : twoTo m ≤ twoTo n :=
  Nat.pow_le_pow_right (by decide) ordered

theorem twoTo_succ (n : Nat) : twoTo (n + 1) = twoTo n + twoTo n := by
  rw [twoTo_add]
  exact Nat.mul_two (twoTo n)

namespace Binary64

theorem fractionField_lt (x : Binary64) : x.fractionField < twoTo 52 :=
  Nat.mod_lt _ (twoTo_pos 52)

/-- A finite number without its sign, counted in the least positive number `2^-1074`. -/
def multiple (x : Binary64) : Nat :=
  if x.exponentField = 0 then x.fractionField
  else (twoTo 52 + x.fractionField) * twoTo (x.exponentField - 1)

theorem multiple_subnormal (x : Binary64) (subnormal : x.exponentField = 0) :
    x.multiple < twoTo 52 := by
  simp only [multiple, subnormal, ↓reduceIte]
  exact x.fractionField_lt

/-- The exponent field of a normal number is read off the size of its multiple. -/
theorem multiple_normal (x : Binary64) (normal : x.exponentField ≠ 0) :
    twoTo (51 + x.exponentField) ≤ x.multiple ∧ x.multiple < twoTo (52 + x.exponentField) := by
  obtain ⟨e, same⟩ : ∃ e, x.exponentField = e + 1 := ⟨x.exponentField - 1, by omega⟩
  have bound := x.fractionField_lt
  simp only [multiple, same, Nat.add_sub_cancel, Nat.succ_ne_zero, ↓reduceIte]
  rw [show 51 + (e + 1) = 52 + e by omega, show 52 + (e + 1) = 53 + e by omega,
    twoTo_add 52 e, twoTo_add 53 e]
  have wide : twoTo 53 = twoTo 52 + twoTo 52 := twoTo_succ 52
  constructor
  · exact Nat.mul_le_mul_right _ (Nat.le_add_right _ _)
  · exact Nat.mul_lt_mul_of_pos_right (by omega) (twoTo_pos e)

theorem exponentField_le_of_multiple_le {x y : Binary64} (ordered : x.multiple ≤ y.multiple) :
    x.exponentField ≤ y.exponentField := by
  by_cases normal : x.exponentField = 0
  · omega
  · have lower := (x.multiple_normal normal).1
    by_cases small : y.exponentField = 0
    · have upper := y.multiple_subnormal small
      have step : twoTo 52 ≤ twoTo (51 + x.exponentField) := twoTo_le (by omega)
      omega
    · have upper := (y.multiple_normal small).2
      by_cases above : x.exponentField ≤ y.exponentField
      · exact above
      · have step : twoTo (52 + y.exponentField) ≤ twoTo (51 + x.exponentField) :=
          twoTo_le (by omega)
        omega

/-- The multiple determines both fields. -/
theorem fields_eq_of_multiple_eq {x y : Binary64} (equal : x.multiple = y.multiple) :
    x.exponentField = y.exponentField ∧ x.fractionField = y.fractionField := by
  have exponents : x.exponentField = y.exponentField :=
    Nat.le_antisymm (exponentField_le_of_multiple_le (Nat.le_of_eq equal))
      (exponentField_le_of_multiple_le (Nat.le_of_eq equal.symm))
  refine ⟨exponents, ?_⟩
  unfold multiple at equal
  rw [exponents] at equal
  split at equal
  · exact equal
  · have significands := Nat.eq_of_mul_eq_mul_right (twoTo_pos _) equal
    omega

/-- Sign and fields make up the whole pattern. -/
theorem eq_of_fields {x y : Binary64} (signs : x.negative = y.negative)
    (exponents : x.exponentField = y.exponentField)
    (fractions : x.fractionField = y.fractionField) : x = y := by
  obtain ⟨a⟩ := x
  obtain ⟨b⟩ := y
  have boundA := a.toNat_lt
  have boundB := b.toNat_lt
  simp only [negative, exponentField, fractionField] at signs exponents fractions
  rw [show twoTo 63 = 9223372036854775808 from rfl] at signs
  rw [show twoTo 52 = 4503599627370496 from rfl, show twoTo 11 = 2048 from rfl] at exponents
  rw [show twoTo 52 = 4503599627370496 from rfl] at fractions
  have tops : a.toNat / 9223372036854775808 = b.toNat / 9223372036854775808 := by
    by_cases top : a.toNat / 9223372036854775808 = 1
    · have other : b.toNat / 9223372036854775808 = 1 := by
        simpa only [top, beq_self_eq_true, Bool.true_eq, beq_iff_eq] using signs
      omega
    · have other : b.toNat / 9223372036854775808 ≠ 1 := by
        intro one
        simp [one, top] at signs
      omega
  congr 1
  apply UInt64.toNat_inj.mp
  omega

/-- What equalling an integer says about the pattern of a number. -/
structure Whole (x : Binary64) (n : Int) : Prop where
  finite : ∃ m q, x.reading = .finite x.negative m q
  multiple : x.multiple = n.natAbs * twoTo 1074
  sign : n ≠ 0 → (x.negative = true ↔ n < 0)

theorem signed_natAbs (negative : Bool) (k : Nat) :
    (if negative then -(k : Int) else k).natAbs = k := by
  split <;> omega

theorem signed_sign (negative : Bool) (k : Nat) (nonzero : (if negative then -(k : Int) else k) ≠ 0) :
    negative = true ↔ (if negative then -(k : Int) else k) < 0 := by
  cases negative with
  | false => simp
  | true =>
    simp only [↓reduceIte, ne_eq, true_iff] at nonzero ⊢
    omega

theorem Whole.of_magnitude {x : Binary64} {n : Int} {m k : Nat} {q : Int}
    (read : x.reading = .finite x.negative m q)
    (value : (if x.negative then -(k : Int) else k) = n)
    (counted : x.multiple = k * twoTo 1074) : x.Whole n := by
  refine ⟨⟨m, q, read⟩, ?_, ?_⟩
  · rw [← value, signed_natAbs, counted]
  · rw [← value]
    exact signed_sign x.negative k

theorem whole_of_toInt? {x : Binary64} {n : Int} (equals : x.toInt? = some n) : x.Whole n := by
  unfold toInt? at equals
  by_cases special : x.exponentField = 2047
  · by_cases infinite : x.fractionField = 0 <;>
      simp [reading, special, infinite] at equals
  by_cases subnormal : x.exponentField = 0
  · have read : x.reading = .finite x.negative x.fractionField (-1074) := by
      simp [reading, subnormal]
    rw [read] at equals
    simp only [show ¬ (0 : Int) ≤ -1074 by decide, ↓reduceIte,
      show (- -1074 : Int).toNat = 1074 by decide] at equals
    split at equals
    · rename_i divides
      refine .of_magnitude read (Option.some.inj equals) ?_
      simp only [multiple, subnormal, ↓reduceIte]
      exact (Nat.div_mul_cancel (Nat.dvd_of_mod_eq_zero divides)).symm
    · cases equals
  · have read : x.reading =
        .finite x.negative (twoTo 52 + x.fractionField) (x.exponentField - 1075) := by
      simp [reading, special, subnormal]
    rw [read] at equals
    by_cases large : (0 : Int) ≤ x.exponentField - 1075
    · simp only [large, ↓reduceIte] at equals
      refine .of_magnitude read (Option.some.inj equals) ?_
      simp only [multiple, subnormal, ↓reduceIte]
      rw [Nat.mul_assoc, ← twoTo_add]
      congr 2
      omega
    · simp only [large, ↓reduceIte] at equals
      split at equals
      · rename_i divides
        refine .of_magnitude read (Option.some.inj equals) ?_
        have whole := Nat.div_mul_cancel (Nat.dvd_of_mod_eq_zero divides)
        have powers : twoTo 1074 =
            twoTo (-(x.exponentField - 1075 : Int)).toNat * twoTo (x.exponentField - 1) := by
          rw [← twoTo_add]
          congr 1
          omega
        simp only [multiple, subnormal, ↓reduceIte]
        rw [powers, ← Nat.mul_assoc, whole]
      · cases equals

theorem isZero_of_multiple {x : Binary64} (zero : x.multiple = 0) : x.isZero = true := by
  by_cases subnormal : x.exponentField = 0
  · simp only [multiple, subnormal, ↓reduceIte] at zero
    simp [isZero, reading, subnormal, zero]
  · have lower := (x.multiple_normal subnormal).1
    have positive := twoTo_pos (51 + x.exponentField)
    omega

theorem toInt?_of_isZero {x : Binary64} (zero : x.isZero = true) : x.toInt? = some 0 := by
  unfold isZero at zero
  unfold toInt?
  split at zero
  · rename_i negative q read
    rw [read]
    by_cases large : 0 ≤ q <;> simp [large]
  · cases zero

theorem equals_iff_of_finite {x y : Binary64} (finiteX : ∃ m q, x.reading = .finite x.negative m q)
    (finiteY : ∃ m q, y.reading = .finite y.negative m q) :
    x.equals y = ((x.isZero && y.isZero) || x == y) := by
  obtain ⟨m, q, readX⟩ := finiteX
  obtain ⟨k, r, readY⟩ := finiteY
  simp only [equals, readX, readY]

theorem equals_of_toInt? {x y : Binary64} {n : Int} (first : x.toInt? = some n)
    (second : y.toInt? = some n) : x.equals y = true := by
  have wholeX := whole_of_toInt? first
  have wholeY := whole_of_toInt? second
  rw [equals_iff_of_finite wholeX.finite wholeY.finite]
  by_cases zero : n = 0
  · have left := isZero_of_multiple
      (by rw [wholeX.multiple, zero, Int.natAbs_zero, Nat.zero_mul])
    have right := isZero_of_multiple
      (by rw [wholeY.multiple, zero, Int.natAbs_zero, Nat.zero_mul])
    simp only [left, right, Bool.and_self, Bool.true_or]
  · have fields := fields_eq_of_multiple_eq (wholeX.multiple.trans wholeY.multiple.symm)
    have signs : x.negative = y.negative := by
      rw [Bool.eq_iff_iff, wholeX.sign zero, wholeY.sign zero]
    have same : x = y := eq_of_fields signs fields.1 fields.2
    simp only [same, beq_self_eq_true, Bool.or_true]

theorem isZero_or_eq_of_equals {x y : Binary64} (equal : x.equals y = true) :
    (x.isZero = true ∧ y.isZero = true) ∨ x = y := by
  unfold equals at equal
  split at equal
  · cases equal
  · cases equal
  · simpa only [Bool.or_eq_true, Bool.and_eq_true, beq_iff_eq] using equal

theorem equals_comm (x y : Binary64) : x.equals y = y.equals x := by
  have same : (x == y) = (y == x) := Bool.beq_comm
  unfold equals
  cases x.reading <;> cases y.reading <;> simp only [Bool.and_comm, same]

theorem toInt?_eq_of_equals {x y : Binary64} (equal : x.equals y = true) : x.toInt? = y.toInt? := by
  rcases isZero_or_eq_of_equals equal with ⟨zeroX, zeroY⟩ | same
  · rw [toInt?_of_isZero zeroX, toInt?_of_isZero zeroY]
  · rw [same]

/-- Numbers that are equal to a third one are equal. -/
theorem equals_of_common {x y z : Binary64} (first : x.equals z = true) (second : y.equals z = true) :
    x.equals y = true := by
  rcases isZero_or_eq_of_equals first with ⟨zeroX, zeroZ⟩ | same
  · have zero : z.toInt? = some 0 := toInt?_of_isZero zeroZ
    exact equals_of_toInt? (toInt?_of_isZero zeroX) ((toInt?_eq_of_equals second).trans zero)
  · subst same
    rcases isZero_or_eq_of_equals second with ⟨zeroY, zeroX⟩ | same
    · exact equals_of_toInt? (toInt?_of_isZero zeroX) (toInt?_of_isZero zeroY)
    · rwa [same]

end Binary64

end AccessGroups.Decimal

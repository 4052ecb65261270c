import AccessGroups.Decimal.Shortest

/-!
Numbers written to a given digit: with so many places behind the point, with an exponent behind so many
digits, or in the one of these forms that suits the size of the number. The exact value is rounded to the
last digit, and to the even digit where two are equally near.
-/

set_option autoImplicit false

namespace AccessGroups.Decimal

/-- The whole number nearest to a quotient, of two equally near ones the even one. -/
def nearest (num den : Nat) : Nat :=
  let below := num / den
  let twice := 2 * (num % den)
  if den < twice || (twice == den && below % 2 == 1) then below + 1 else below

/-- The number of 64 bits nearest to a whole number, unless it is beyond all of them. -/
def Reading.ofInt? (n : Int) : Option Reading :=
  let shift := n.natAbs.log2 + 1 - 53
  let significand := nearest n.natAbs (twoTo shift)
  if significand.log2 + shift < 1024 then some (.finite (decide (n < 0)) significand shift)
  else none

/-- The digits of a number, with zeros before them if they are fewer than `least`. -/
def leastDigits (base least n : Nat) : List Char :=
  let digits := Nat.toDigits base n
  List.replicate (least - digits.length) '0' ++ digits

/-- Digits before and behind a point. A point with nothing behind it is written only if it is kept. -/
def pointed (keep : Bool) (whole fraction : List Char) : List Char :=
  if fraction.isEmpty && !keep then whole else whole ++ '.' :: fraction

def exponentMark (exponent : Int) : List Char :=
  'e' :: (if exponent < 0 then '-' else '+') :: leastDigits 10 2 exponent.natAbs

namespace Scaled

def roundedAt (x : Scaled) (place : Int) : Nat :=
  let (num, den) := x.overTenPow place
  nearest num den

/-- The first `count` digits of a number and the place of the first one. Rounding up can move it. -/
def significant (x : Scaled) (count : Nat) : List Char × Int :=
  if x.quarters = 0 then (List.replicate count '0', 0)
  else
    let place := x.leadingPlace
    let d := x.roundedAt (place - (count - 1 : Nat))
    if d = tenTo count then (Nat.toDigits 10 (tenTo (count - 1)), place + 1)
    else (Nat.toDigits 10 d, place)

def fixed (x : Scaled) (keep : Bool) (places : Nat) : List Char :=
  let digits := leastDigits 10 (places + 1) (x.roundedAt (-places))
  pointed keep (digits.take (digits.length - places)) (digits.drop (digits.length - places))

def scientific (x : Scaled) (keep : Bool) (places : Nat) : List Char :=
  let (digits, exponent) := x.significant (places + 1)
  pointed keep (digits.take 1) (digits.drop 1) ++ exponentMark exponent

/-- So many digits at most, zeros at the end left out unless the point is kept. The exponent is written out
where it is below minus four or not below the number of digits. -/
def general (x : Scaled) (keep : Bool) (most : Nat) : List Char :=
  let count := max 1 most
  let (digits, exponent) := x.significant count
  let shown := if keep then digits else dropTrailingZeros digits
  if exponent < -4 ∨ (count : Int) ≤ exponent then
    pointed keep (shown.take 1) (shown.drop 1) ++ exponentMark exponent
  else if exponent < 0 then
    pointed keep ['0'] (List.replicate (-exponent - 1).toNat '0' ++ shown)
  else
    pointed keep (digits.take (exponent.toNat + 1)) (shown.drop (exponent.toNat + 1))

end Scaled

end AccessGroups.Decimal

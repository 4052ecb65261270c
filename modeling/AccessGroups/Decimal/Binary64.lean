import AccessGroups.Decimal.Power

/-!
Binary floating-point numbers of 64 bits, kept as their bit pattern. The pattern is decoded into a
sign, a whole significand and a power of two, so that every question asked of a number here
(is it zero, is it whole, which of two is larger) is answered in exact integer arithmetic.
-/

set_option autoImplicit false

namespace AccessGroups.Decimal

/-- A binary64 number, given by its 64 bits: sign, eleven exponent bits, fifty-two fraction bits. -/
structure Binary64 where
  bits : UInt64
  deriving DecidableEq, Inhabited

/-- What a bit pattern stands for: `finite negative m q` is `m · 2^q` with its sign. -/
inductive Reading where
  | nan
  | infinite (negative : Bool)
  | finite (negative : Bool) (significand : Nat) (exponent : Int)
  deriving DecidableEq

namespace Binary64

def exponentField (x : Binary64) : Nat := x.bits.toNat / twoTo 52 % twoTo 11

def fractionField (x : Binary64) : Nat := x.bits.toNat % twoTo 52

def negative (x : Binary64) : Bool := x.bits.toNat / twoTo 63 == 1

/-- Subnormal numbers share the least exponent and have no hidden bit. -/
def reading (x : Binary64) : Reading :=
  if x.exponentField = 2047 then
    if x.fractionField = 0 then .infinite x.negative else .nan
  else if x.exponentField = 0 then
    .finite x.negative x.fractionField (-1074)
  else
    .finite x.negative (twoTo 52 + x.fractionField) (x.exponentField - 1075)

/-- True of both zeros and of nothing else. -/
def isZero (x : Binary64) : Bool :=
  match x.reading with
  | .finite _ 0 _ => true
  | _ => false

/-- The whole part, fractions dropped toward zero; infinities and NaN have none. -/
def truncate? (x : Binary64) : Option Int :=
  match x.reading with
  | .finite negative m q =>
    let magnitude := if 0 ≤ q then m * twoTo q.toNat else m / twoTo (-q).toNat
    some (if negative then -(magnitude : Int) else magnitude)
  | _ => none

/-- The greatest integer that is not above a number; infinities and NaN have none. -/
def floor? (x : Binary64) : Option Int :=
  match x.reading with
  | .finite negative m q =>
    let signed : Int := if negative then -(m : Int) else m
    some (if 0 ≤ q then signed * twoTo q.toNat else Int.fdiv signed (twoTo (-q).toNat))
  | _ => none

def toInt? (x : Binary64) : Option Int :=
  match x.reading with
  | .finite negative m q =>
    if 0 ≤ q then
      let magnitude := m * twoTo q.toNat
      some (if negative then -(magnitude : Int) else magnitude)
    else if m % twoTo (-q).toNat = 0 then
      let magnitude := m / twoTo (-q).toNat
      some (if negative then -(magnitude : Int) else magnitude)
    else none
  | _ => none

/-- The order of a number and an integer; NaN has no place in it. -/
def compareInt? (x : Binary64) (n : Int) : Option Ordering :=
  match x.reading with
  | .nan => none
  | .infinite negative => some (if negative then .lt else .gt)
  | .finite negative m q =>
    let signed : Int := if negative then -(m : Int) else m
    if 0 ≤ q then some (compare (signed * twoTo q.toNat) n)
    else some (compare signed (n * twoTo (-q).toNat))

/-- Numeric equality: the two zeros are equal and NaN equals nothing, itself included. -/
def equals (x y : Binary64) : Bool :=
  match x.reading, y.reading with
  | .nan, _ => false
  | _, .nan => false
  | _, _ => (x.isZero && y.isZero) || x == y

end Binary64

end AccessGroups.Decimal

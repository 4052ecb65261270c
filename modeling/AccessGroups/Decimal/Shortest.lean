import AccessGroups.Decimal.Binary64

/-!
The shortest decimal text of a binary64 number: the fewest digits that read back as the same number,
and of those the nearest. The search runs over decimal grids of one to seventeen digits in exact
natural arithmetic. The layout is positional from 0.0001 up to 10^16 and scientific outside.
-/

set_option autoImplicit false

namespace AccessGroups.Decimal

/-- The number `quarters · 2^power`, in quarter units of a significand's last place. -/
structure Scaled where
  quarters : Nat
  power : Int

namespace Scaled

def ofSignificand (m : Nat) (q : Int) : Scaled := ⟨4 * m, q - 2⟩

/-- Numerator and denominator of `x / 10^k`. -/
def overTenPow (x : Scaled) (k : Int) : Nat × Nat :=
  (x.quarters * twoTo x.power.toNat * tenTo (-k).toNat, twoTo (-x.power).toNat * tenTo k.toNat)

/-- The order of `x` and `d · 10^k`. -/
def compareDecimal (x : Scaled) (d : Nat) (k : Int) : Ordering :=
  let (num, den) := x.overTenPow k
  compare num (d * den)

/-- The place of the leading digit: the largest `e` with `10^e` at most the number. The estimate
from the number's size in bits is off by at most one, and the test settles it. -/
def leadingPlace (x : Scaled) : Int :=
  let bits : Int := x.quarters.log2 + x.power
  let estimate := Int.fdiv (bits * 30103) 100000
  if x.compareDecimal 1 (estimate + 1) != .lt then estimate + 1
  else if x.compareDecimal 1 estimate != .lt then estimate
  else estimate - 1

end Scaled

/-- A positive number and the ends of the interval of reals that round to it. -/
structure Rounding where
  value : Scaled
  lower : Scaled
  upper : Scaled
  /-- The ends themselves round to the number, which holds when its significand is even. -/
  closed : Bool

namespace Rounding

/-- The gap below a power of two is half the gap above it, least normal numbers apart. -/
def ofSignificand (m : Nat) (q : Int) : Rounding :=
  let gapBelow := if m = twoTo 52 ∧ -1074 < q then 1 else 2
  { value := .ofSignificand m q
    lower := ⟨4 * m - gapBelow, q - 2⟩
    upper := ⟨4 * m + 2, q - 2⟩
    closed := m % 2 == 0 }

/-- Whether `d · 10^k` reads back as the number. -/
def readsBack (r : Rounding) (d : Nat) (k : Int) : Bool :=
  match r.lower.compareDecimal d k, r.upper.compareDecimal d k with
  | .lt, .gt => true
  | .eq, _ => r.closed
  | _, .eq => r.closed
  | _, _ => false

/-- The neighbour of the number on the grid of multiples of `10^k` that reads back: the nearer one,
and of two equally near ones the even one. -/
def onGrid? (r : Rounding) (k : Int) : Option Nat :=
  let (num, den) := r.value.overTenPow k
  let below := num / den
  match r.readsBack below k, r.readsBack (below + 1) k with
  | false, false => none
  | true, false => some below
  | false, true => some (below + 1)
  | true, true =>
    match compare (2 * (num - below * den)) den with
    | .lt => some below
    | .gt => some (below + 1)
    | .eq => some (if below % 2 = 0 then below else below + 1)

/-- Tries at most `grids` grids, the next one at `place` and each of the others ten times finer, and
takes the first that holds a number which reads back, with its power of ten. Seventeen grids always
suffice. -/
def searchGrids (r : Rounding) : (grids : Nat) → (place : Int) → Nat × Int
  | 0, place => (0, place)
  | grids + 1, place =>
    match r.onGrid? place with
    | some d => (d, place)
    | none => r.searchGrids grids (place - 1)

end Rounding

/-- Drops the zeros at the end of a digit text, keeping its first digit. -/
def dropTrailingZeros (digits : List Char) : List Char :=
  match (digits.reverse.dropWhile (· == '0')).reverse with
  | [] => digits.take 1
  | kept => kept

/-- Digits `d₁d₂…` with the point after the first one, at a power of ten of at least two digits. -/
def scientific (digits : List Char) (exponent : Int) : List Char :=
  let mantissa := match digits with
    | d :: [] => [d]
    | d :: rest => d :: '.' :: rest
    | [] => []
  let sign := if exponent < 0 then '-' else '+'
  let magnitude := (toString exponent.natAbs).toList
  let padded := if magnitude.length < 2 then '0' :: magnitude else magnitude
  mantissa ++ 'e' :: sign :: padded

/-- Digits `d₁d₂…` whose first digit stands at place `exponent`, written with a point. -/
def positional (digits : List Char) (exponent : Int) : List Char :=
  if exponent < 0 then
    '0' :: '.' :: (List.replicate (-exponent - 1).toNat '0' ++ digits)
  else
    let whole := exponent.toNat + 1
    if digits.length ≤ whole then
      digits ++ List.replicate (whole - digits.length) '0' ++ ['.', '0']
    else
      digits.take whole ++ '.' :: digits.drop whole

def shortestPositive (m : Nat) (q : Int) : List Char :=
  let r := Rounding.ofSignificand m q
  let (d, place) := r.searchGrids 17 r.value.leadingPlace
  let all := (toString d).toList
  let exponent := place + (all.length - 1 : Nat)
  let digits := dropTrailingZeros all
  if -4 ≤ exponent ∧ exponent < 16 then positional digits exponent else scientific digits exponent

/-- The shortest text that reads back as the number; zero keeps its sign. -/
def Binary64.shortest (x : Binary64) : String :=
  match x.reading with
  | .nan => "nan"
  | .infinite negative => if negative then "-inf" else "inf"
  | .finite negative m q =>
    let magnitude := if m = 0 then ['0', '.', '0'] else shortestPositive m q
    String.ofList (if negative then '-' :: magnitude else magnitude)

end AccessGroups.Decimal

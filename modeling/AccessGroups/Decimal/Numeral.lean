import AccessGroups.Text.Blank

/-!
Whole numbers written in decimal. A numeral is an optional minus and digits without a needless zero in
front. A loosely written one may also have spacing around it, a plus in place of the minus, zeros in
front of the digits, single underscores between them, and a point followed by nothing but zeros.
-/

set_option autoImplicit false

namespace AccessGroups.Decimal

/-- Why a text is not read as a whole number. -/
inductive NumeralFault where
  | malformed
  /-- There are more digits than are read. -/
  | tooLong
  deriving DecidableEq

def maxDigits : Nat := 4300

def isDigit (c : Char) : Bool := decide ('0' ≤ c ∧ c ≤ '9')

/-- The number that digits stand for. -/
def digitsValue (ds : List Char) : Nat := ds.foldl (fun n d => 10 * n + (d.toNat - '0'.toNat)) 0

/-- Reads digits without a needless zero in front. More digits than are read are too many whatever
follows them. -/
def readDigits (ds : List Char) : Except NumeralFault Nat :=
  match ds with
  | [] => .error .malformed
  | ['0'] => .ok 0
  | '0' :: _ => .error .malformed
  | ds =>
    if maxDigits < (ds.takeWhile isDigit).length then .error .tooLong
    else if ds.all isDigit then .ok (digitsValue ds)
    else .error .malformed

def readNumeral : List Char → Except NumeralFault Int
  | '-' :: ds => (readDigits ds).map fun n => -(n : Int)
  | ds => (readDigits ds).map Int.ofNat

def trimSpacing (cs : List Char) : List Char :=
  ((cs.dropWhile Text.isSpacing).reverse.dropWhile Text.isSpacing).reverse

/-- Drops zeros, and underscores among them, in front of a number. The last zero stays in front of a
point, and the last character stays where nothing follows. -/
def dropZerosAfter (last : Char) : List Char → Option (List Char)
  | [] => some [last]
  | c :: rest =>
    if c == '0' || c == '_' then dropZerosAfter c rest
    else if c == '.' then some (last :: c :: rest)
    else if isDigit c then some (c :: rest)
    else none

def dropLeadingZeros : List Char → Option (List Char)
  | '0' :: rest => dropZerosAfter '0' rest
  | c :: rest => if isDigit c then some (c :: rest) else none
  | [] => none

/-- Drops a point and the zeros after it, if there are any and nothing else follows it. -/
def dropZeroFraction (cs : List Char) : List Char :=
  match cs.dropWhile (· != '.') with
  | '.' :: '0' :: zeros => if zeros.all (· == '0') then cs.takeWhile (· != '.') else cs
  | _ => cs

/-- No underscore stands at an end or beside another one. -/
def underscoresSeparate (cs : List Char) : Bool :=
  cs.head? != some '_' && cs.getLast? != some '_' &&
    !(cs.zip (cs.drop 1)).any fun (a, b) => a == '_' && b == '_'

def dropUnderscores (cs : List Char) : List Char :=
  if underscoresSeparate cs then cs.filter (· != '_') else cs

def tidyDigits? (cs : List Char) : Option (List Char) :=
  (dropLeadingZeros cs).map fun body => dropUnderscores (dropZeroFraction body)

def tidyNumeral? (cs : List Char) : Option (List Char) :=
  match trimSpacing cs with
  | '-' :: ds => (tidyDigits? ds).map ('-' :: ·)
  | '+' :: ds => tidyDigits? ds
  | ds => tidyDigits? ds

def readInteger (cs : List Char) : Except NumeralFault Int :=
  match readNumeral cs with
  | .error .malformed => ((tidyNumeral? cs).map readNumeral).getD (.error .malformed)
  | result => result

end AccessGroups.Decimal

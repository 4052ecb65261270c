import AccessGroups.Decimal.Rounded
import AccessGroups.Value.Display

/-!
Conversions: how one argument of a message template is shown. A conversion is a letter, with flags, a least
width and a precision before it. A width is filled up with spaces, or with zeros between the sign of a number
and its digits. A precision cuts a text, is the least number of digits of a whole number, and says to which
place a real number is rounded.
-/

set_option autoImplicit false

namespace AccessGroups.Log

open Decimal (Scaled)

/-- What stands before the letter of a conversion. -/
structure Conversion where
  /-- Whether a shown argument stands on the left of the width. -/
  left : Bool := false
  plus : Bool := false
  blank : Bool := false
  alternate : Bool := false
  zeros : Bool := false
  width : Nat := 0
  precision? : Option Nat := none

/-- The whole part of a number, for `%d`. -/
def wholePart : Value → Except Misuse Int
  | .int n => .ok n
  | .bool b => .ok (if b then 1 else 0)
  | .real x =>
    match x.reading, x.truncate? with
    | .nan, _ => .error .content
    | _, some n => .ok n
    | _, none => .error .overflow
  | _ => .error .operand

/-- A whole number as it is; there is none for a real number, even if it is whole. -/
def wholeNumber : Value → Except Misuse Int
  | .int n => .ok n
  | .bool b => .ok (if b then 1 else 0)
  | _ => .error .operand

def realNumber : Value → Except Misuse Decimal.Reading
  | .real x => .ok x.reading
  | v => do
    match Decimal.Reading.ofInt? (← wholeNumber v) with
    | some reading => return reading
    | none => .error .overflow

/-- A character, given by itself or by its code. Texts hold no surrogates, so that a code of one means
nothing here. -/
def oneCharacter : Value → Except Misuse Char
  | .text s =>
    match s.toList with
    | [c] => .ok c
    | _ => .error .operand
  | v => do
    let n ← wholeNumber v
    if n < 0 ∨ 0x110000 ≤ n then .error .overflow
    else if n.toNat.isValidChar then return Char.ofNat n.toNat
    else .error .content

namespace Conversion

def flagged? (c : Conversion) (flag : Char) : Option Conversion :=
  match flag with
  | '-' => some { c with left := true }
  | '+' => some { c with plus := true }
  | ' ' => some { c with blank := true }
  | '#' => some { c with alternate := true }
  | '0' => some { c with zeros := true }
  | _ => none

def fitText (c : Conversion) (cs : List Char) : List Char :=
  let fill := List.replicate (c.width - cs.length) ' '
  if c.left then cs ++ fill else fill ++ cs

def sign (c : Conversion) (negative : Bool) : List Char :=
  if negative then ['-'] else if c.plus then ['+'] else if c.blank then [' '] else []

/-- Zeros fill a width up behind the sign and the mark of the base, and never on the right. -/
def fitNumber (c : Conversion) (negative : Bool) (mark digits : List Char) : List Char :=
  let front := c.sign negative ++ mark
  if c.zeros && !c.left then
    front ++ List.replicate (c.width - (front.length + digits.length)) '0' ++ digits
  else c.fitText (front ++ digits)

def text (c : Conversion) (cs : List Char) : List Char :=
  c.fitText (match c.precision? with
    | some most => cs.take most
    | none => cs)

def whole (c : Conversion) (n : Int) : List Char :=
  c.fitNumber (decide (n < 0)) [] (Decimal.leastDigits 10 (c.precision?.getD 0) n.natAbs)

/-- A whole number to another base, which the alternate form marks by its letter. -/
def based (c : Conversion) (base : Nat) (letter : Char) (n : Int) : List Char :=
  c.fitNumber (decide (n < 0)) (if c.alternate then ['0', letter] else [])
    (Decimal.leastDigits base (c.precision?.getD 0) n.natAbs)

/-- A real number in one of the written forms, which the alternate form keeps the point in. -/
def real (c : Conversion) (form : Scaled → (keep : Bool) → Nat → List Char) :
    Decimal.Reading → List Char
  | .nan => c.fitNumber false [] "nan".toList
  | .infinite negative => c.fitNumber negative [] "inf".toList
  | .finite negative m q =>
    c.fitNumber negative [] (form (.ofSignificand m q) c.alternate (c.precision?.getD 6))

/-- The text that a conversion makes of an argument. -/
def convert (c : Conversion) (letter : Char) (v : Value) : Except Misuse (List Char) :=
  match letter with
  | 's' => .ok (c.text v.display.toList)
  | 'r' => .ok (c.text v.literalChars)
  | 'a' => .ok (c.text (v.literalChars.flatMap Text.asciiChar))
  | 'c' => (oneCharacter v).map fun shown => c.fitText [shown]
  | 'd' | 'i' | 'u' => (wholePart v).map c.whole
  | 'o' => (wholeNumber v).map (c.based 8 'o')
  | 'x' => (wholeNumber v).map (c.based 16 'x')
  | 'X' => (wholeNumber v).map fun n => (c.based 16 'x' n).map Char.toUpper
  | 'e' => (realNumber v).map (c.real Scaled.scientific)
  | 'f' => (realNumber v).map (c.real Scaled.fixed)
  | 'g' => (realNumber v).map (c.real Scaled.general)
  | 'E' => (realNumber v).map fun x => (c.real Scaled.scientific x).map Char.toUpper
  | 'F' => (realNumber v).map fun x => (c.real Scaled.fixed x).map Char.toUpper
  | 'G' => (realNumber v).map fun x => (c.real Scaled.general x).map Char.toUpper
  | _ => .error .template

end Conversion

end AccessGroups.Log

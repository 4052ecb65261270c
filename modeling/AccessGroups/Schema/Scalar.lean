import AccessGroups.Decimal.Numeral
import AccessGroups.Schema.Checked

/-!
Checks of texts, whole numbers and truth values. A value of a neighbouring kind is taken for what it
stands for: bytes for the text they encode, a text for the number or truth value that it spells, a
whole floating-point number for an integer.
-/

set_option autoImplicit false

namespace AccessGroups.Schema

/-- The text that bytes encode in UTF-8. -/
def decodeUtf8? (bs : List UInt8) : Option String := String.fromUTF8? ⟨bs.toArray⟩

def checkText : Value → Checked String
  | .text s => .ok s
  | .bytes bs =>
    match decodeUtf8? bs with
    | some s => .ok s
    | none => .fail .textEncoding
  | _ => .fail .notText

def checkNumeral (s : String) : Checked Int :=
  match Decimal.readInteger s.toList with
  | .ok n => .ok n
  | .error .malformed => .fail .integerText
  | .error .tooLong => .fail .integerSize

def checkInteger : Value → Checked Int
  | .int n => .ok n
  | .bool b => .ok (if b then 1 else 0)
  | .text s => checkNumeral s
  | .bytes bs =>
    match decodeUtf8? bs with
    | some s => checkNumeral s
    | none => .fail .integerText
  | .real x =>
    match x.truncate?, x.toInt? with
    | none, _ => .fail .integerInfinite
    | some _, none => .fail .integerFraction
    | some _, some n => if n.natAbs < Decimal.twoTo 63 then .ok n else .fail .integerSize
  | _ => .fail .notInteger

/-- A whole number between two bounds, which belong to it. -/
def checkBounded (least greatest : Int) (v : Value) : Checked Int :=
  match checkInteger v with
  | .ok n =>
    if n < least then .fail (.below least)
    else if greatest < n then .fail (.above greatest)
    else .ok n
  | .error issues => .error issues

def yesWords : List String := ["1", "on", "t", "true", "y", "yes"]

def noWords : List String := ["0", "off", "f", "false", "n", "no"]

/-- A word for a truth value, in letters of either case. -/
def checkYesNo (s : String) : Checked Bool :=
  let word := String.ofList (s.toList.map Char.toLower)
  if yesWords.contains word then .ok true
  else if noWords.contains word then .ok false
  else .fail .booleanText

/-- One and zero stand for truth values; another number that is `small` is taken for an attempt at
one, and a large one is not. -/
def checkZeroOne (small : Bool) (n : Int) : Checked Bool :=
  if n = 1 then .ok true
  else if n = 0 then .ok false
  else if small then .fail .booleanText
  else .fail .notBoolean

def checkBoolean : Value → Checked Bool
  | .bool b => .ok b
  | .int n => checkZeroOne (Issue.fitsWord n) n
  | .text s => checkYesNo s
  | .bytes bs =>
    match decodeUtf8? bs with
    | some s => checkYesNo s
    | none => .fail .booleanText
  | .real x =>
    match x.toInt? with
    | some n => checkZeroOne (n.natAbs < Decimal.twoTo 63) n
    | none => .fail .notBoolean
  | _ => .fail .notBoolean

end AccessGroups.Schema

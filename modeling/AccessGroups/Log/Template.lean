import AccessGroups.Log.Conversion
import AccessGroups.Value.Entries

/-!
Message templates: a text in which a percent sign, and what may stand before a letter, stand with the letter
for the next argument. `%%` stands for a percent sign, and `%(key)s` for what a mapping holds under a key. A
width or a precision given as `*` is an argument too. A template without arguments is the message itself.

Widths and precisions are limited by the machine's numbers only, not by the memory for the text.
-/

set_option autoImplicit false

namespace AccessGroups.Log

/-- The arguments of a template. -/
structure Arguments where
  /-- What keys are looked up in. -/
  mapping? : Option (Entries Value)
  /-- The arguments that are still to be used, in order. -/
  supply : List Value
  /-- Whether an argument may not be left over. -/
  exhaustive : Bool

namespace Arguments

/-- A tuple holds the arguments one by one, and any other value is the only argument. A collection may be
left unused; of these a mapping can be looked up in as well. -/
def ofValue : Value → Arguments
  | .tuple vs => ⟨none, vs, true⟩
  | .map es => ⟨some es, [.map es], false⟩
  | .list vs => ⟨none, [.list vs], false⟩
  | .bytes bs => ⟨none, [.bytes bs], false⟩
  | v => ⟨none, [v], true⟩

/-- The arguments given in a list; a single mapping that is not empty is looked up in. -/
def pack : List Value → Value
  | [.map (e :: es)] => .map (e :: es)
  | vs => .tuple vs

/-- Looks a key up; what is found there is the next argument and the only one. -/
def lookUp (a : Arguments) (key : String) : Except Misuse Arguments :=
  match a.mapping? with
  | some es =>
    match Entries.get? es (.text key) with
    | some v => .ok { a with supply := [v] }
    | none => .error .key
  | none => .error .operand

def next (a : Arguments) : Except Misuse (Value × Arguments) :=
  match a.supply with
  | [] => .error .operand
  | v :: rest => .ok (v, { a with supply := rest })

end Arguments

/-- What of a conversion was read last. -/
inductive ConversionStage where
  /-- Its percent sign, its key or a flag. -/
  | flags
  /-- A digit of its width. -/
  | width
  /-- A width that is an argument. -/
  | suppliedWidth
  | point
  /-- A digit of its precision. -/
  | precision
  /-- A precision that is an argument. -/
  | suppliedPrecision
  /-- A letter for the size of the argument, which means nothing. -/
  | size

/-- Where in a template the reading is: outside of a conversion, after its percent sign, inside its key
within so many further parentheses, or behind that. -/
inductive TemplatePlace where
  | outside
  | opened
  | key (depth : Nat) (reversed : List Char)
  | inside (stage : ConversionStage) (c : Conversion)

/-- What a character of a template does: what is written for it, where the reading is then, and the
arguments that are still there. -/
structure TemplateStep where
  written : List Char
  place : TemplatePlace
  arguments : Arguments

def greatestWidth : Nat := Decimal.twoTo 63 - 1

def greatestPrecision : Nat := Decimal.twoTo 31 - 1

def appendDigit (bound n : Nat) (digit : Char) : Except Misuse Nat :=
  let longer := 10 * n + (digit.toNat - '0'.toNat)
  if longer ≤ bound then .ok longer else .error .template

/-- A whole number between the bounds of the machine's numbers. -/
def machineNumber (bound : Nat) (v : Value) : Except Misuse Int := do
  let n ← wholeNumber v
  if n < -(bound + 1 : Int) ∨ (bound : Int) < n then .error .overflow else return n

namespace Conversion

/-- A width that is below zero asks for the left side. -/
def withWidth (c : Conversion) (n : Int) : Conversion :=
  { c with width := n.natAbs, left := c.left || decide (n < 0) }

section

variable (c : Conversion) (a : Arguments) (ch : Char)

/-- The letter of a conversion shows the next argument. -/
def readLetter : Except Misuse TemplateStep := do
  let (v, rest) ← a.next
  return ⟨← c.convert ch v, .outside, rest⟩

def readSize : Except Misuse TemplateStep :=
  if ch == 'h' || ch == 'l' || ch == 'L' then .ok ⟨[], .inside .size c, a⟩ else c.readLetter a ch

def readPoint : Except Misuse TemplateStep :=
  if ch == '.' then .ok ⟨[], .inside .point { c with precision? := some 0 }, a⟩ else c.readSize a ch

def readWidth : Except Misuse TemplateStep := do
  return ⟨[], .inside .width { c with width := ← appendDigit greatestWidth c.width ch }, a⟩

def readPrecision : Except Misuse TemplateStep := do
  let precision ← appendDigit greatestPrecision (c.precision?.getD 0) ch
  return ⟨[], .inside .precision { c with precision? := some precision }, a⟩

def supplyWidth : Except Misuse TemplateStep := do
  let (v, rest) ← a.next
  return ⟨[], .inside .suppliedWidth (c.withWidth (← machineNumber greatestWidth v)), rest⟩

/-- A precision that is below zero is zero. -/
def supplyPrecision : Except Misuse TemplateStep := do
  let (v, rest) ← a.next
  let n ← machineNumber greatestPrecision v
  return ⟨[], .inside .suppliedPrecision { c with precision? := some n.toNat }, rest⟩

/-- Reads a character of a conversion of which so much has been read. -/
def read (stage : ConversionStage) : Except Misuse TemplateStep :=
  match stage with
  | .flags =>
    match c.flagged? ch with
    | some flagged => .ok ⟨[], .inside .flags flagged, a⟩
    | none =>
      if ch == '*' then c.supplyWidth a
      else if ch.isDigit then c.readWidth a ch
      else c.readPoint a ch
  | .width => if ch.isDigit then c.readWidth a ch else c.readPoint a ch
  | .suppliedWidth => c.readPoint a ch
  | .point =>
    if ch == '*' then c.supplyPrecision a
    else if ch.isDigit then c.readPrecision a ch
    else c.readSize a ch
  | .precision => if ch.isDigit then c.readPrecision a ch else c.readSize a ch
  | .suppliedPrecision => c.readSize a ch
  | .size => c.readLetter a ch

end

end Conversion

namespace TemplatePlace

def step (place : TemplatePlace) (a : Arguments) (ch : Char) : Except Misuse TemplateStep :=
  match place with
  | .outside => .ok (if ch == '%' then ⟨[], .opened, a⟩ else ⟨[ch], .outside, a⟩)
  | .opened =>
    if ch == '%' then .ok ⟨['%'], .outside, a⟩
    else if ch == '(' then
      if a.exhaustive then .error .operand else .ok ⟨[], .key 0 [], a⟩
    else Conversion.read {} a ch .flags
  | .key depth reversed =>
    if ch == ')' then
      match depth with
      | 0 => do return ⟨[], .inside .flags {}, ← a.lookUp (String.ofList reversed.reverse)⟩
      | depth + 1 => .ok ⟨[], .key depth (ch :: reversed), a⟩
    else .ok ⟨[], .key (if ch == '(' then depth + 1 else depth) (ch :: reversed), a⟩
  | .inside stage c => c.read a ch stage

/-- The end of a template: outside of a conversion, with no argument left over that has to be used. -/
def finish (place : TemplatePlace) (a : Arguments) : Except Misuse (List Char) :=
  match place with
  | .outside => if a.exhaustive && !a.supply.isEmpty then .error .operand else .ok []
  | _ => .error .template

end TemplatePlace

/-- Replaces the conversions of a template, from a place in it on. -/
def expandFrom (place : TemplatePlace) (a : Arguments) : List Char → Except Misuse (List Char)
  | [] => place.finish a
  | ch :: rest => do
    let step ← place.step a ch
    let after ← expandFrom step.place step.arguments rest
    return step.written ++ after

/-- The message that a template makes of its arguments. -/
def expand (template arguments : Value) : Except Misuse String :=
  if arguments.truthy then
    (expandFrom .outside (.ofValue arguments) template.display.toList).map String.ofList
  else .ok template.display

end AccessGroups.Log

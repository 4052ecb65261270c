import AccessGroups.Log.Clock
import AccessGroups.Text.UpperCase

/-!
Time patterns: a text in which a percent sign and a letter stand for a part of a moment. Between them
may stand flags, a least width and a modifier. A conversion that does not exist stands for itself.
-/

set_option autoImplicit false

namespace AccessGroups.Log

/-- How a part of a moment is to be shown. -/
structure Manner where
  /-- The last flag that says what fills a part up: `0` for zeros, `_` for spaces, `-` for nothing. -/
  fill? : Option Char
  /-- Whether letters are raised to upper case. -/
  raised : Bool
  /-- Whether a part is written in its other case. -/
  swapped : Bool
  width : Nat
  /-- The modifier that asks for another calendar or for other digits. There are none, but only some
  conversions take it. -/
  modifier? : Option Char

namespace Manner

def plain : Manner := ⟨none, false, false, 0, none⟩

def fit (m : Manner) (cs : List Char) : List Char :=
  List.replicate (m.width - cs.length) (if m.fill? == some '0' then '0' else ' ') ++ cs

/-- A number with at least so many places. Zeros go between the sign and the digits and spaces before
the sign; a `spaced` number is filled with spaces unless a flag says otherwise. -/
def number (m : Manner) (places : Nat) (spaced : Bool) (n : Int) : List Char :=
  let sign := if n < 0 then ['-'] else []
  let digits := (toString n.natAbs).toList
  let missing := max places m.width - (sign.length + digits.length)
  if m.fill? == some '-' then m.fit (sign ++ digits)
  else if m.fill? == some '_' || (spaced && m.fill? != some '0') then
    List.replicate missing ' ' ++ sign ++ digits
  else sign ++ List.replicate missing '0' ++ digits

end Manner

/-- The upper case of a character where that is one character. -/
def raiseChar (c : Char) : Char :=
  match Text.upperChar c with
  | [d] => d
  | _ => c

/-- A part of a moment. -/
inductive Part where
  | number (places : Nat) (spaced : Bool) (n : Int)
  /-- A name, whose other case is upper case. -/
  | name (cs : List Char)
  /-- A mark in upper case, whose other case is lower case. -/
  | mark (cs : List Char)
  /-- Several parts in one, which has no other case. -/
  | compound (cs : List Char)
  /-- A part in one case only. -/
  | fixed (cs : List Char)

def Part.show (m : Manner) : Part → List Char
  | .number places spaced n => m.number places spaced n
  | .name cs => m.fit (if m.raised || m.swapped then cs.map raiseChar else cs)
  | .mark cs => m.fit (if m.swapped then cs.map Char.toLower else cs)
  | .compound cs => m.fit (if m.raised then cs.map raiseChar else cs)
  | .fixed cs => m.fit cs

def padded (places n : Nat) : List Char := Manner.plain.number places false n

def dayNames : List String :=
  ["Sunday", "Monday", "Tuesday", "Wednesday", "Thursday", "Friday", "Saturday"]

def monthNames : List String :=
  ["January", "February", "March", "April", "May", "June", "July", "August", "September", "October",
    "November", "December"]

namespace Moment

def dayName (m : Moment) : List Char := (dayNames.getD m.weekday "").toList

def monthName (m : Moment) : List Char := (monthNames.getD (m.month - 1) "").toList

def half (m : Moment) : List Char := (if m.hour < 12 then "AM" else "PM").toList

def isoDate (m : Moment) : List Char :=
  (toString m.year).toList ++ '-' :: padded 2 m.month ++ '-' :: padded 2 m.day

def hourMinute (m : Moment) : List Char := padded 2 m.hour ++ ':' :: padded 2 m.minute

def timeOfDay (m : Moment) : List Char := m.hourMinute ++ ':' :: padded 2 m.second

def yearOfCentury (m : Moment) : Nat := (m.year % 100).toNat

def shortDate (m : Moment) : List Char :=
  padded 2 m.month ++ '/' :: padded 2 m.day ++ '/' :: padded 2 m.yearOfCentury

def timeOfHalf (m : Moment) : List Char :=
  padded 2 m.hour12 ++ ':' :: padded 2 m.minute ++ ':' :: padded 2 m.second ++ ' ' :: m.half

def dateAndTime (m : Moment) : List Char :=
  m.dayName.take 3 ++ ' ' :: m.monthName.take 3 ++ ' ' :: Manner.plain.number 2 true m.day ++
    ' ' :: m.timeOfDay ++ ' ' :: (toString m.year).toList

def modifiers (c : Char) : List Char :=
  if ['a', 'A', 'D', 'F'].contains c then []
  else if ['c', 'x', 'X', 'Y'].contains c then ['E']
  else if ['C', 'y', 'u', 'n', 't', 'p', 'P', 'r', 'R', 's', 'T', 'z', 'Z', '%'].contains c then
    ['E', 'O']
  else ['O']

/-- The parts that the letter of a conversion stands for. -/
def parts? (m : Moment) (c : Char) : Option (List Part) :=
  match c with
  | 'Y' => some [.number 1 false m.year]
  | 'C' => some [.number 1 false (m.year / 100)]
  | 'y' => some [.number 2 false m.yearOfCentury]
  | 'G' => some [.number 1 false m.week.1]
  | 'g' => some [.number 2 false (m.week.1 % 100)]
  | 'V' => some [.number 2 false m.week.2]
  | 'm' => some [.number 2 false m.month]
  | 'd' => some [.number 2 false m.day]
  | 'e' => some [.number 2 true m.day]
  | 'H' => some [.number 2 false m.hour]
  | 'k' => some [.number 2 true m.hour]
  | 'I' => some [.number 2 false m.hour12]
  | 'l' => some [.number 2 true m.hour12]
  | 'M' => some [.number 2 false m.minute]
  | 'S' => some [.number 2 false m.second]
  | 'p' => some [.mark m.half]
  | 'P' => some [.fixed (m.half.map Char.toLower)]
  | 'j' => some [.number 3 false (m.yearDay + 1 : Nat)]
  | 'a' => some [.name (m.dayName.take 3)]
  | 'A' => some [.name m.dayName]
  | 'b' => some [.name (m.monthName.take 3)]
  | 'h' => some [.name (m.monthName.take 3)]
  | 'B' => some [.name m.monthName]
  | 'w' => some [.number 1 false m.weekday]
  | 'u' => some [.number 1 false (m.daysSinceMonday + 1 : Nat)]
  | 'U' => some [.number 2 false ((m.yearDay + 7 - m.weekday) / 7 : Nat)]
  | 'W' => some [.number 2 false ((m.yearDay + 7 - m.daysSinceMonday) / 7 : Nat)]
  | 's' => some [.fixed (toString m.stamp).toList]
  | 'F' => some [.compound m.isoDate]
  | 'T' => some [.compound m.timeOfDay]
  | 'X' => some [.compound m.timeOfDay]
  | 'R' => some [.compound m.hourMinute]
  | 'D' => some [.compound m.shortDate]
  | 'x' => some [.compound m.shortDate]
  | 'r' => some [.compound m.timeOfHalf]
  | 'c' => some [.compound m.dateAndTime]
  | 'z' => some [.fixed ['+'], .number 4 false 0]
  | 'Z' => some [.mark "GMT".toList]
  | 'n' => some [.fixed ['\n']]
  | 't' => some [.fixed ['\t']]
  | '%' => some [.fixed ['%']]
  | _ => none

/-- The text of a conversion that does not exist. Only for short names of months does it have another
case. -/
def itself (manner : Manner) (c : Char) (source : List Char) : List Char :=
  (if c == 'b' || c == 'h' then Part.name source else Part.compound source).show manner

/-- What a conversion shows; one that does not exist shows its own text. -/
def conversion (m : Moment) (manner : Manner) (c : Char) (source : List Char) : List Char :=
  let itself := itself manner c source
  match m.parts? c, manner.modifier? with
  | none, _ => itself
  | some parts, none => parts.flatMap (Part.show manner)
  | some parts, some modifier =>
    if (modifiers c).contains modifier then parts.flatMap (Part.show manner) else itself

end Moment

/-- What of a conversion was read last: its percent sign or a flag, a digit of its width, or its
modifier. -/
inductive Stage where
  | flags
  | width
  | modifier

/-- What a character adds to a conversion, unless it is the letter that ends it. -/
def Stage.next (stage : Stage) (m : Manner) (c : Char) : Option (Stage × Manner) :=
  match stage with
  | .flags =>
    if c == '_' || c == '-' || c == '0' then some (.flags, { m with fill? := some c })
    else if c == '^' then some (.flags, { m with raised := true })
    else if c == '#' then some (.flags, { m with swapped := true })
    else widthOrModifier
  | .width => widthOrModifier
  | .modifier => none
where
  widthOrModifier : Option (Stage × Manner) :=
    if c.isDigit then some (.width, { m with width := 10 * m.width + (c.toNat - '0'.toNat) })
    else if c == 'E' || c == 'O' then some (.modifier, { m with modifier? := some c })
    else none

/-- Where in a pattern the reading is: outside of a conversion, or inside one whose text so far is
given backwards. -/
inductive PatternPlace where
  | outside
  | inside (stage : Stage) (manner : Manner) (source : List Char)

/-- The room for the text of a pattern of the given length: it starts at 1024 characters and doubles
until it is 256 times that length. -/
def roomFor (length : Nat) : Nat := double length 1024
where
  double : Nat → Nat → Nat
    | 0, room => room
    | fuel + 1, room => if 256 * length ≤ room then room else double fuel (2 * room)

namespace Moment

/-- Writes a moment by a pattern, unless a width alone is more than there is room for. -/
def expand (m : Moment) (room : Nat) : PatternPlace → List Char → Option (List Char)
  | .outside, [] => some []
  | .outside, c :: cs =>
    if c == '%' then m.expand room (.inside .flags .plain ['%']) cs
    else (m.expand room .outside cs).map (c :: ·)
  | .inside _ manner source, [] => some ((Part.compound source.reverse).show manner)
  | .inside stage manner source, c :: cs =>
    match stage.next manner c with
    | some (stage, manner) =>
      if room ≤ manner.width then none else m.expand room (.inside stage manner (c :: source)) cs
    | none =>
      (m.expand room .outside cs).map (m.conversion manner c (c :: source).reverse ++ ·)

/-- Writes a moment by a pattern. A text for which there is no room is left out as a whole. -/
def write (m : Moment) (pattern : List Char) : List Char :=
  let room := roomFor pattern.length
  match m.expand room .outside pattern with
  | some cs => if cs.length < room then cs else []
  | none => []

/-- A moment with its milliseconds, as log lines show it. -/
def stampText (m : Moment) (milliseconds : Int) : List Char :=
  m.isoDate ++ ' ' :: m.timeOfDay ++ ',' :: Manner.plain.number 3 false milliseconds

end Moment

end AccessGroups.Log

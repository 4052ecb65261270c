import AccessGroups.Json.Writer

/-!
A reader of JSON texts, as a machine that takes one character after another. Arrays and objects that
have not ended are kept on a stack. Inside a string every escape of JSON is understood, two escaped
surrogates are one character, and a control character or half a pair is refused. A number, a truth
value or `null` is kept as the word that is written. An object lists its members as they are written.
-/

set_option autoImplicit false

namespace AccessGroups.Json

/-- What a JSON text says. -/
inductive Tree where
  | word (cs : List Char)
  | text (s : String)
  | array (items : List Tree)
  | object (members : List (String × Tree))

/-! ## Strings -/

/-- Where inside a string the reading is: between two characters, after a backslash, or inside a code
unit, so many of whose digits are missing. -/
inductive Spot where
  | plain
  | escape
  | unit (missing amount : Nat)

/-- A string that is being read. -/
structure Scan where
  /-- The characters so far, backwards. -/
  done : List Char
  /-- The first half of a surrogate pair, while the second half is to follow. -/
  high? : Option Nat
  spot : Spot

def hexValue? (c : Char) : Option Nat :=
  if '0' ≤ c ∧ c ≤ '9' then some (c.toNat - '0'.toNat)
  else if 'a' ≤ c ∧ c ≤ 'f' then some (c.toNat - 'a'.toNat + 10)
  else if 'A' ≤ c ∧ c ≤ 'F' then some (c.toNat - 'A'.toNat + 10)
  else none

/-- The character that a letter after a backslash stands for. -/
def escaped? (c : Char) : Option Char :=
  if c == '"' || c == '\\' || c == '/' then some c
  else if c == 'b' then some '\x08'
  else if c == 'f' then some '\x0c'
  else if c == 'n' then some '\n'
  else if c == 'r' then some '\r'
  else if c == 't' then some '\t'
  else none

def isHighHalf (n : Nat) : Bool := 0xD800 ≤ n && n < 0xDC00

def isLowHalf (n : Nat) : Bool := 0xDC00 ≤ n && n < 0xE000

namespace Scan

def start : Scan := ⟨[], none, .plain⟩

def text (s : Scan) : String := String.ofList s.done.reverse

def add (s : Scan) (c : Char) : Scan := ⟨c :: s.done, none, .plain⟩

/-- A code unit is a character, or one half of a pair. -/
def addUnit (s : Scan) (n : Nat) : Option Scan :=
  match s.high? with
  | none =>
    if isHighHalf n then some ⟨s.done, some n, .plain⟩
    else if isLowHalf n then none
    else some (s.add (Char.ofNat n))
  | some high =>
    if isLowHalf n then
      some (s.add (Char.ofNat (0x10000 + (high - 0xD800) * 0x400 + (n - 0xDC00))))
    else none

def endedBy (s : Scan) (c : Char) : Bool :=
  match s.spot with
  | .plain => s.high?.isNone && c == '"'
  | _ => false

def next (s : Scan) (c : Char) : Option Scan :=
  match s.spot with
  | .plain =>
    if c == '\\' then some { s with spot := .escape }
    else if s.high?.isSome || c.toNat < 0x20 then none
    else some (s.add c)
  | .escape =>
    if c == 'u' then some { s with spot := .unit 4 0 }
    else if s.high?.isSome then none
    else (escaped? c).map s.add
  | .unit missing amount => do
    let digit ← hexValue? c
    let amount := 16 * amount + digit
    if missing = 1 then s.addUnit amount else some { s with spot := .unit (missing - 1) amount }

end Scan

/-! ## Texts -/

/-- An array or an object that has not ended: its parts so far, backwards, and the name of the member
that is being read. -/
inductive Frame where
  | array (items : List Tree)
  | object (members : List (String × Tree)) (name : String)

/-- What a string is read as: a value, or the name of a further member of an object. -/
inductive Role where
  | value
  | name (members : List (String × Tree))

/-- Where in a text the reading is; `around` is what has not ended, the innermost first. -/
inductive State where
  /-- Before a value. -/
  | beforeValue (around : List Frame)
  /-- Before the name of a member. -/
  | beforeName (members : List (String × Tree)) (around : List Frame)
  /-- After the name of a member. -/
  | afterName (members : List (String × Tree)) (name : String) (around : List Frame)
  | inString (role : Role) (scan : Scan) (around : List Frame)
  /-- In a word, whose characters so far are given backwards. -/
  | inWord (reversed : List Char) (around : List Frame)
  /-- After a value. -/
  | afterValue (tree : Tree) (around : List Frame)

def isBlank (c : Char) : Bool := c == ' ' || c == '\t' || c == '\n' || c == '\r'

/-- The characters of numbers, truth values and `null`. -/
def isWordChar (c : Char) : Bool := c.isAlphanum || c == '+' || c == '-' || c == '.'

namespace State

def afterString (text : String) (around : List Frame) : Role → State
  | .value => .afterValue (.text text) around
  | .name members => .afterName members text around

/-- A bracket in place of a value: it may end an array that has no items yet. -/
def endEmpty (around : List Frame) (c : Char) : Option State :=
  match around with
  | .array [] :: outer => if c == ']' then some (.afterValue (.array []) outer) else none
  | _ => none

/-- A character at the start of a value. -/
def enter (around : List Frame) (c : Char) : Option State :=
  if c == '"' then some (.inString .value .start around)
  else if c == '[' then some (.beforeValue (.array [] :: around))
  else if c == '\x7b' then some (.beforeName [] around)
  else if isWordChar c then some (.inWord [c] around)
  else endEmpty around c

/-- A character after a value: what it is part of goes on or ends. -/
def leave (tree : Tree) (around : List Frame) (c : Char) : Option State :=
  match around with
  | .array items :: outer =>
    if c == ',' then some (.beforeValue (.array (tree :: items) :: outer))
    else if c == ']' then some (.afterValue (.array (tree :: items).reverse) outer)
    else none
  | .object members name :: outer =>
    if c == ',' then some (.beforeName ((name, tree) :: members) outer)
    else if c == '\x7d' then some (.afterValue (.object ((name, tree) :: members).reverse) outer)
    else none
  | [] => none

/-- The reading after one more character; blanks count inside strings only. -/
def step : State → Char → Option State
  | .inString role scan around, c =>
    if scan.endedBy c then some (afterString scan.text around role)
    else (scan.next c).map fun scan => .inString role scan around
  | .inWord reversed around, c =>
    if isWordChar c then some (.inWord (c :: reversed) around)
    else if isBlank c then some (.afterValue (.word reversed.reverse) around)
    else leave (.word reversed.reverse) around c
  | .beforeValue around, c => if isBlank c then some (.beforeValue around) else enter around c
  | .beforeName members around, c =>
    if isBlank c then some (.beforeName members around)
    else if c == '"' then some (.inString (.name members) .start around)
    else if c == '\x7d' && members.isEmpty then some (.afterValue (.object []) around)
    else none
  | .afterName members name around, c =>
    if isBlank c then some (.afterName members name around)
    else if c == ':' then some (.beforeValue (.object members name :: around))
    else none
  | .afterValue tree around, c =>
    if isBlank c then some (.afterValue tree around) else leave tree around c

def run (s : State) (cs : List Char) : Option State := cs.foldlM step s

def result? : State → Option Tree
  | .afterValue tree [] => some tree
  | .inWord reversed [] => some (.word reversed.reverse)
  | _ => none

@[simp] theorem run_nil (s : State) : s.run [] = some s := rfl

@[simp] theorem run_cons (s : State) (c : Char) (cs : List Char) :
    s.run (c :: cs) = (s.step c).bind (·.run cs) := rfl

theorem run_append (s : State) (cs ds : List Char) : s.run (cs ++ ds) = (s.run cs).bind (·.run ds) :=
  List.foldlM_append

theorem run_append_of {s t : State} {cs : List Char} (reached : s.run cs = some t) (ds : List Char) :
    s.run (cs ++ ds) = t.run ds := by
  rw [run_append, reached, Option.bind_some]

end State

def read? (text : String) : Option Tree :=
  (State.run (.beforeValue []) text.toList).bind State.result?

end AccessGroups.Json

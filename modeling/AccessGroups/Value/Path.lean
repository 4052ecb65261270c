import AccessGroups.Value.Entries

/-!
Edits deep inside a value. A path is a list of keys, each leading from a mapping to the value under the
key, or from a sequence to the item at an index; a negative index counts from the end, and a truth
value counts as zero or one. Only mappings and lists can be edited, but a path may lead to one through
a tuple.
-/

set_option autoImplicit false

namespace AccessGroups.Value

def index? : Value → Option Int
  | .int n => some n
  | .bool b => some (if b then 1 else 0)
  | _ => none

/-- The position that an index means in a sequence of the given length. -/
def position? (length : Nat) (index : Int) : Option Nat :=
  let place := if index < 0 then index + length else index
  if 0 ≤ place ∧ place < length then some place.toNat else none

def positionIn (length : Nat) (key : Value) : Except Misuse Nat :=
  match key.index? with
  | none => .error .operand
  | some index =>
    match position? length index with
    | some position => .ok position
    | none => .error .position

def itemAt (items : List Value) (key : Value) : Except Misuse Value := do
  let position ← positionIn items.length key
  match items[position]? with
  | some item => .ok item
  | none => .error .position

/-- The value that a key leads to. The items of a text are its characters, and those of bytes their
numbers. -/
def child (v key : Value) : Except Misuse Value :=
  match v with
  | .map es =>
    if key.hashable then
      match Entries.get? es key with
      | some found => .ok found
      | none => .error .key
    else .error .operand
  | v =>
    match v.items with
    | .ok items => itemAt items key
    | .error misuse => .error misuse

/-- Puts a value under a key; a mapping takes a new key, a list does not. -/
def assign (v key value : Value) : Except Misuse Value :=
  match v with
  | .map es => if key.hashable then .ok (.map (Entries.put es key value)) else .error .operand
  | .list vs => (positionIn vs.length key).map fun position => .list (vs.set position value)
  | _ => .error .operand

/-- Removes what is under a key, which has to be there. -/
def remove (v key : Value) : Except Misuse Value :=
  match v with
  | .map es =>
    if key.hashable then
      if Entries.has es key then .ok (.map (Entries.erase es key)) else .error .key
    else .error .operand
  | .list vs => (positionIn vs.length key).map fun position => .list (vs.eraseIdx position)
  | _ => .error .operand

/-- The value with an edited part put back where a key leads. The parts of a tuple are fixed, but one
that can be edited stays in its place. -/
def putBack (v key part : Value) : Except Misuse Value :=
  match v with
  | .tuple vs => (positionIn vs.length key).map fun position => .tuple (vs.set position part)
  | v => v.assign key part

/-- Edits the value at the end of a path and puts the result back along it. -/
def editAt (edit : Value → Value → Except Misuse Value) (v : Value) :
    List Value → Except Misuse Value
  | [] => .error .position
  | [key] => edit v key
  | key :: rest => do
    let inner ← v.child key
    let edited ← editAt edit inner rest
    v.putBack key edited

def setAt (v : Value) (path : List Value) (value : Value) : Except Misuse Value :=
  editAt (fun target key => target.assign key value) v path

def removeAt (v : Value) (path : List Value) : Except Misuse Value := editAt remove v path

end AccessGroups.Value

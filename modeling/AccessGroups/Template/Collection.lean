import AccessGroups.Text.Substring
import AccessGroups.Value.Display
import AccessGroups.Value.Path

/-!
The resources of a template, as a collection that only grows: an entry is added under a free name,
and no entry is changed or removed. The collection stands over the template's own value; where that is
no mapping, nothing can be added.
-/

set_option autoImplicit false

namespace AccessGroups.Template

structure Collection where
  /-- The value under the template's resources, normally a mapping. -/
  backing : Value

namespace Collection

def empty : Collection := ⟨.map []⟩

/-- Whether a byte number or a run of bytes occurs in bytes. -/
def bytesContain (bs : List UInt8) : Value → Except Misuse Bool
  | .bytes part => .ok (Text.occursIn part bs)
  | v =>
    match v.index? with
    | none => .error .operand
    | some n =>
      if 0 ≤ n ∧ n < 256 then .ok (bs.any fun b => (b.toNat : Int) == n) else .error .content

def contains (c : Collection) (name : Value) : Except Misuse Bool :=
  match c.backing with
  | .map es => if name.hashable then .ok (Entries.has es name) else .error .operand
  | .list vs => .ok (vs.any (Value.same · name))
  | .tuple vs => .ok (vs.any (Value.same · name))
  | .bytes bs => bytesContain bs name
  | .text s =>
    match name with
    | .text part => .ok (Text.occursIn part.toList s.toList)
    | _ => .error .operand
  | _ => .error .operand

def get (c : Collection) (name : Value) : Except Misuse Value := c.backing.child name

/-- Writes into the template itself, over an entry that is there. -/
def assign (c : Collection) (name resource : Value) : Except Misuse Collection :=
  (c.backing.assign name resource).map Collection.mk

/-- Adds a resource unless the name is taken, and tells whether it did. -/
def addIfAbsent (c : Collection) (name resource : Value) : Except Misuse (Collection × Bool) := do
  if ← c.contains name then
    return (c, false)
  else
    return (← c.assign name resource, true)

/-- Writes a property of the resource under a name. -/
def assignIn (c : Collection) (name key value : Value) : Except Misuse Collection :=
  (c.backing.setAt [name, key] value).map Collection.mk

/-- The names in the collection, in the order in which they were added. -/
def names (c : Collection) : Except Misuse (List Value) := c.backing.items

def size (c : Collection) : Except Misuse Nat := c.names.map List.length

def describe (c : Collection) : Except Misuse String :=
  c.names.map fun names => "ResourceCollection(" ++ (Value.list names).literal ++ ")"

end Collection

end AccessGroups.Template

import AccessGroups.Value.Path

/-!
Places inside a value, and values in which several places are linked. A place is a path in its plain
form, in which items of sequences are counted from the start. Linked places hold one and the same
thing: an edit inside one of them is seen at all of them, and putting something else in one of them
takes only that one out of the link.
-/

set_option autoImplicit false

namespace AccessGroups

/-- The keys that lead to a part of a value. -/
abbrev Place := List Value

namespace Place

/-- The rest of the way from a place to one at or inside it. -/
def within? : Place → Place → Option Place
  | [], inner => some inner
  | _ :: _, [] => none
  | key :: outer, other :: inner => if Value.same key other then within? outer inner else none

def isSame (p q : Place) : Bool := (p.within? q).any List.isEmpty

/-- Where a place goes when the item at a position of the list at `owner` is removed. -/
def afterRemoval (owner : Place) (position : Nat) (p : Place) : Place :=
  match owner.within? p with
  | some (.int n :: rest) => if (position : Int) < n then owner ++ .int (n - 1) :: rest else p
  | _ => p

end Place

namespace Value

def plainKey (v key : Value) : Except Misuse Value :=
  match v with
  | .map _ => .ok key
  | v => do
    let items ← v.items
    return .int (← positionIn items.length key)

/-- The place that a path leads to, and what is there. -/
def locate (v : Value) : List Value → Except Misuse (Place × Value)
  | [] => .ok ([], v)
  | key :: path => do
    let part ← v.child key
    let (place, found) ← part.locate path
    return ((← v.plainKey key) :: place, found)

end Value

/-- Which places are linked: the places of each group are, with one another. No linked place lies inside
another one. -/
abbrev Links := List (List Place)

namespace Links

/-- The places that show an edit at a place. -/
def images (links : Links) (p : Place) : List Place :=
  (links.findSome? fun group =>
    (group.findSome? (·.within? p)).map fun rest => group.map (· ++ rest)).getD [p]

def link (known new : Place) : Links → Links
  | [] => [[known, new]]
  | group :: rest =>
    if group.any known.isSame then (group ++ [new]) :: rest else group :: link known new rest

/-- Leaves out what is at a place or inside it. -/
def unlink (links : Links) (p : Place) : Links :=
  (links.map (·.filter fun q => (p.within? q).isNone)).filter fun group => 1 < group.length

end Links

/-- A value some of whose places are linked. -/
structure Linked where
  value : Value
  links : Links

namespace Linked

def ofValue (v : Value) : Linked := ⟨v, []⟩

/-- Where an edit at the end of a path takes effect: the places of the mapping or list that is edited,
what is there, and the key under which. -/
def target (l : Linked) (path : List Value) : Except Misuse (List Place × Value × Value) :=
  match path.getLast? with
  | none => .error .position
  | some key => do
    let (owner, found) ← l.value.locate path.dropLast
    return (l.links.images owner, found, key)

/-- The value after an edit under a key at several places. -/
def editAll (v : Value) (edit : Value → Value → Except Misuse Value) (owners : List Place)
    (key : Value) : Except Misuse Value :=
  owners.foldlM (fun v owner => v.editAt edit (owner ++ [key])) v

def setAt (l : Linked) (path : List Value) (value : Value) : Except Misuse Linked := do
  let (owners, found, key) ← l.target path
  let edited ← editAll l.value (fun target key => target.assign key value) owners key
  let key ← found.plainKey key
  return ⟨edited, owners.foldl (fun links owner => links.unlink (owner ++ [key])) l.links⟩

def removeAt (l : Linked) (path : List Value) : Except Misuse Linked := do
  let (owners, found, key) ← l.target path
  let edited ← editAll l.value Value.remove owners key
  let key ← found.plainKey key
  let links := owners.foldl (fun links owner => links.unlink (owner ++ [key])) l.links
  match found, key with
  | .list _, .int position =>
    let moved := owners.foldl (fun links owner =>
      links.map (·.map (Place.afterRemoval owner position.toNat))) links
    return ⟨edited, moved⟩
  | _, _ => return ⟨edited, links⟩

end Linked

end AccessGroups

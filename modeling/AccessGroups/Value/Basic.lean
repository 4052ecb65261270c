import AccessGroups.Decimal.Binary64
import AccessGroups.Misuse

/-!
Dynamic values, the form in which configuration and templates are given: scalars, lists, tuples and
mappings whose keys are values too. Mappings keep the order in which their keys were inserted. Two
keys are the same when they are equal as values, so `1`, `true` and `1.0` are one key.
-/

set_option autoImplicit false

namespace AccessGroups

/-- A dynamic value. -/
inductive Value where
  | null
  | bool (b : Bool)
  | int (n : Int)
  | real (x : Decimal.Binary64)
  | text (s : String)
  | bytes (bs : List UInt8)
  | list (items : List Value)
  | tuple (items : List Value)
  | map (entries : List (Value × Value))
  deriving Inhabited

namespace Value

/-- False of `null`, `false`, the zeros and everything empty. -/
def truthy : Value → Bool
  | .null => false
  | .bool b => b
  | .int n => n != 0
  | .real x => !x.isZero
  | .text s => s != ""
  | .bytes bs => !bs.isEmpty
  | .list items => !items.isEmpty
  | .tuple items => !items.isEmpty
  | .map entries => !entries.isEmpty

def isNull : Value → Bool
  | .null => true
  | _ => false

mutual

/-- Only values that cannot change serve as keys: lists and mappings do not, wherever they occur. -/
def hashable : Value → Bool
  | .list _ => false
  | .map _ => false
  | .tuple items => allHashable items
  | _ => true

def allHashable : List Value → Bool
  | [] => true
  | v :: vs => hashable v && allHashable vs

end

/-- Equality with an integer; the truth values count as zero and one. -/
def sameInt (n : Int) : Value → Bool
  | .bool b => n == if b then 1 else 0
  | .int m => m == n
  | .real x => x.toInt? == some n
  | _ => false

/-- Equality with a floating-point number. -/
def sameReal (x : Decimal.Binary64) : Value → Bool
  | .bool b => x.toInt? == some (if b then 1 else 0)
  | .int m => x.toInt? == some m
  | .real y => x.equals y
  | _ => false

mutual

/-- Equality of values: numbers by amount, lists and tuples item by item, mappings by their entries
in any order. -/
def same : Value → Value → Bool
  | .null, .null => true
  | .bool b, w => sameInt (if b then 1 else 0) w
  | .int n, w => sameInt n w
  | .real x, w => sameReal x w
  | .text s, .text t => s == t
  | .bytes bs, .bytes cs => bs == cs
  | .list vs, .list ws => sameItems vs ws
  | .tuple vs, .tuple ws => sameItems vs ws
  | .map es, .map fs => es.length == fs.length && sameEntries es fs
  | _, _ => false

def sameItems : List Value → List Value → Bool
  | [], [] => true
  | v :: vs, w :: ws => same v w && sameItems vs ws
  | _, _ => false

/-- Every entry on the left has an equal one on the right. -/
def sameEntries : List (Value × Value) → List (Value × Value) → Bool
  | [], _ => true
  | (k, v) :: es, fs => fs.any (fun f => same k f.1 && same v f.2) && sameEntries es fs

end

@[simp] theorem same_text (s t : String) : same (.text s) (.text t) = (s == t) := by
  simp only [same]

/-- The values that a position for one or many stands for: none for `null`, the items of a list or a
tuple, and any other value alone. -/
def oneOrMany : Value → List Value
  | .null => []
  | .list items => items
  | .tuple items => items
  | v => [v]

/-- What a position for one or many stands for, each with the path to it. -/
def oneOrManyAt (v : Value) : List (List Value × Value) :=
  match v with
  | .list items => numbered items
  | .tuple items => numbered items
  | .null => []
  | v => [([], v)]
where
  numbered (items : List Value) : List (List Value × Value) :=
    items.zipIdx.map fun (item, number) => ([.int number], item)

/-- What iteration passes over: items, characters, byte values or keys. -/
def items : Value → Except Misuse (List Value)
  | .list vs => .ok vs
  | .tuple vs => .ok vs
  | .text s => .ok (s.toList.map fun c => .text (String.singleton c))
  | .bytes bs => .ok (bs.map fun b => .int b.toNat)
  | .map es => .ok (es.map Prod.fst)
  | _ => .error .operand

end Value

end AccessGroups

import AccessGroups.Value.Basic

/-!
Mappings as lists of entries in insertion order. A new key goes to the end; putting a value under a
key that is present changes the value and keeps the key's position and spelling.
-/

set_option autoImplicit false

namespace AccessGroups

/-- Entries of a mapping in insertion order; no two keys are the same. -/
abbrev Entries (β : Type) := List (Value × β)

namespace Entries

variable {β : Type}

def get? : Entries β → Value → Option β
  | [], _ => none
  | (k, v) :: rest, key => if Value.same k key then some v else get? rest key

def has (es : Entries β) (key : Value) : Bool := (get? es key).isSome

def put : Entries β → Value → β → Entries β
  | [], key, value => [(key, value)]
  | (k, v) :: rest, key, value =>
    if Value.same k key then (k, value) :: rest else (k, v) :: put rest key value

def erase : Entries β → Value → Entries β
  | [], _ => []
  | (k, v) :: rest, key => if Value.same k key then rest else (k, v) :: erase rest key

def keys (es : Entries β) : List Value := es.map Prod.fst

/-- The mapping that a list of entries gives, a later entry winning over an earlier one. -/
def ofList (es : List (Value × β)) : Entries β := es.foldl (fun done e => put done e.1 e.2) []

@[simp] theorem get?_nil (key : Value) : get? ([] : Entries β) key = none := rfl

@[simp] theorem put_nil (key : Value) (value : β) : put [] key value = [(key, value)] := rfl

/-- A key that is not present goes to the end and nothing before it changes. -/
theorem put_of_get?_eq_none (es : Entries β) (key : Value) (value : β)
    (absent : get? es key = none) : put es key value = es ++ [(key, value)] := by
  induction es with
  | nil => rfl
  | cons e rest ih =>
    obtain ⟨k, v⟩ := e
    simp only [get?] at absent
    split at absent
    · cases absent
    · next different =>
      simp only [put, different, List.cons_append]
      rw [ih absent]
      rfl

end Entries

namespace Value

/-- A member of a mapping by its name, `null` when absent; other values have no members. -/
def field (v : Value) (name : String) : Except Misuse Value :=
  match v with
  | .map es => .ok ((Entries.get? es (.text name)).getD .null)
  | _ => .error .member

def object (fields : List (String × Value)) : Value :=
  .map (fields.map fun (name, v) => (.text name, v))

def texts (ts : List String) : Value := .list (ts.map .text)

end Value

end AccessGroups

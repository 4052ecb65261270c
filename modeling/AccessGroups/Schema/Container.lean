import AccessGroups.Schema.Scalar
import AccessGroups.Value.Entries

/-!
Checks of lists, of mappings from texts, and of records. A record is a mapping with declared fields; a
field may go by two names, the outer one being preferred.
-/

set_option autoImplicit false

namespace AccessGroups.Schema

variable {α : Type}

def checkItems (check : Value → Checked α) (index : Nat) : List Value → List (Checked α)
  | [] => []
  | v :: vs => Checked.under (.int index) (check v) :: checkItems check (index + 1) vs

def checkList (check : Value → Checked α) : Value → Checked (List α)
  | .list vs => Checked.all (checkItems check 0 vs)
  | .tuple vs => Checked.all (checkItems check 0 vs)
  | _ => .fail .notList

/-- Checks an entry: its key has to be a text and its value passes the check. -/
def checkEntry (check : Value → Checked α) (entry : Value × Value) : Checked (String × α) :=
  let place := Issue.placeOfKey entry.1
  Checked.under place (.both (Checked.under (.text "[key]") (checkText entry.1)) (check entry.2))

/-- A mapping from texts: its entries, of which a later one under the same text wins. -/
def textKeyed (es : List (String × α)) : Entries α :=
  Entries.ofList (es.map fun (key, a) => (.text key, a))

def checkMapping (check : Value → Checked α) : Value → Checked (Entries α)
  | .map es => (Checked.all (es.map (checkEntry check))).map textKeyed
  | _ => .fail .notMapping

/-- The names of a field. -/
structure FieldName where
  /-- The name in documents. -/
  outer : String
  /-- The name in the checked record. -/
  inner : String
  deriving DecidableEq

namespace FieldName

def single (name : String) : FieldName := ⟨name, name⟩

/-- The name under which a field is given, and its value. -/
def given? (field : FieldName) (es : Entries Value) : Option (String × Value) :=
  match Entries.get? es (.text field.outer) with
  | some v => some (field.outer, v)
  | none => (Entries.get? es (.text field.inner)).map fun v => (field.inner, v)

end FieldName

def required (es : Entries Value) (field : FieldName) (check : Value → Checked α) : Checked α :=
  match field.given? es with
  | some (name, v) => Checked.under (.text name) (check v)
  | none => Checked.under (.text field.outer) (.fail .missing)

def optional (es : Entries Value) (field : FieldName) (default : α) (check : Value → Checked α) :
    Checked α :=
  match field.given? es with
  | some (name, v) => Checked.under (.text name) (check v)
  | none => .ok default

/-- What a record says to keys that belong to none of its fields. -/
inductive Extras where
  | ignored
  | forbidden
  | kept
  deriving DecidableEq

def usedNames (fields : List FieldName) (es : Entries Value) : List String :=
  fields.filterMap fun field => (field.given? es).map Prod.fst

def extraEntries (fields : List FieldName) (es : Entries Value) : List (Value × Value) :=
  es.filter fun (key, _) => !(usedNames fields es).any fun name => Value.same (.text name) key

def checkExtraKey (extras : Extras) (entry : Value × Value) : Checked (String × Value) :=
  Checked.under (Issue.placeOfKey entry.1) <|
    match entry.1, extras with
    | .text _, .forbidden => .fail .unexpected
    | .text key, _ => .ok (key, entry.2)
    | _, _ => .fail .nonTextKey

/-- The entries that a record keeps beside its fields. -/
def checkExtras (extras : Extras) (fields : List FieldName) (es : Entries Value) :
    Checked (List (String × Value)) :=
  match extras with
  | .ignored => .ok []
  | _ => Checked.all ((extraEntries fields es).map (checkExtraKey extras))

end AccessGroups.Schema

import AccessGroups.Schema.FunctionAccess

/-!
The records of the schema by name, and what reading one shows: the record written with either spelling
of its fields, and the names of the fields that were given.
-/

set_option autoImplicit false

namespace AccessGroups.Schema

inductive Model where
  | role
  | policy
  | group
  | access
  | functionAccess
  deriving DecidableEq

/-- A record as it was read. -/
structure Sheet where
  byInner : Value
  byOuter : Value
  /-- The inner names of the fields that were given, sorted. -/
  given : List String

namespace Model

def all : List Model := [role, policy, group, access, functionAccess]

def title : Model → String
  | role => Role.title
  | policy => Policy.title
  | group => Group.title
  | access => Access.title
  | functionAccess => FunctionAccess.title

def ofTitle? (name : String) : Option Model := all.find? (·.title == name)

def fields : Model → List FieldName
  | role => Role.fields
  | policy => Policy.fields
  | group => Group.fields
  | access => Access.fields
  | functionAccess => FunctionAccess.fields

/-- The fields given by a value's entries, by their inner names. -/
def givenFields (model : Model) : Value → List String
  | .map es => model.fields.filterMap fun field => (field.given? es).map fun _ => field.inner
  | _ => []

/-- Reads a value as a record and writes it out again. -/
def read (model : Model) (v : Value) : Checked Sheet :=
  let sheet (write : (FieldName → String) → Value) (extras : List String) : Sheet :=
    { byInner := write FieldName.inner
      byOuter := write FieldName.outer
      given := (model.givenFields v ++ extras).eraseDups.mergeSort fun a b => decide (a ≤ b) }
  match model with
  | role => (Role.check v).map fun r => sheet r.toValue []
  | policy => (Policy.check v).map fun p => sheet p.toValue []
  | group => (Group.check v).map fun g => sheet g.toValue []
  | access => (Access.check v).map fun a => sheet a.toValue []
  | functionAccess =>
    (FunctionAccess.check v).map fun f => sheet f.toValue (f.extras.map Prod.fst)

end Model

end AccessGroups.Schema

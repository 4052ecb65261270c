import AccessGroups.Schema.Access

/-!
The property that functions gain: the access groups that a function joins. What else a function
declares is kept as it is.
-/

set_option autoImplicit false

namespace AccessGroups.Schema

/-- The groups that a function joins: one, or a list. -/
inductive Joined where
  | one (group : String)
  | many (groups : List String)

namespace Joined

def check (v : Value) : Checked Joined :=
  .firstOf [("str", (checkText v).map one), ("list[str]", (checkList checkText v).map many)]

def toValue : Joined → Value
  | one group => .text group
  | many groups => .texts groups

end Joined

structure FunctionAccess where
  allowAccess : Option Joined
  extras : List (String × Value)

namespace FunctionAccess

def title : String := "FunctionAccessSchema"

def allowAccessField : FieldName := ⟨"allowAccess", "allow_access"⟩

def fields : List FieldName := [allowAccessField]

def check : Value → Checked FunctionAccess
  | .map es =>
    (Checked.both (optional es allowAccessField none (checkNullable Joined.check))
      (checkExtras .kept fields es)).map fun (joined, extras) => ⟨joined, extras⟩
  | _ => .fail (.notRecord title)

/-- The property, and after it what else was declared. -/
def toValue (spell : FieldName → String) (f : FunctionAccess) : Value :=
  .map (Entries.ofList
    ((.text (spell allowAccessField), (f.allowAccess.map Joined.toValue).getD .null) ::
      f.extras.map fun (key, v) => (.text key, v)))

end FunctionAccess

end AccessGroups.Schema

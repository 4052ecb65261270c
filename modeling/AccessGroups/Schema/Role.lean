import AccessGroups.Schema.Principals
import AccessGroups.Template.Role

/-!
A role directive as the schema reads it.
-/

set_option autoImplicit false

namespace AccessGroups.Schema

/-- An assumable role granted to a group. -/
structure Role where
  name : String
  principals : Principals
  allowTagSession : Bool
  maxSessionDuration : Int

namespace Role

def title : String := "RoleSchema"

def nameField : FieldName := .single "name"

def principalsField : FieldName := .single "principals"

def tagSessionField : FieldName := ⟨"allowTagSession", "allow_tag_session"⟩

def durationField : FieldName := ⟨"maxSessionDuration", "max_session_duration"⟩

def fields : List FieldName := [nameField, principalsField, tagSessionField, durationField]

/-- Checks a role: its name and principals must be given, and nothing beyond its fields may be. -/
def check : Value → Checked Role
  | .map es =>
    (Checked.both (required es nameField checkText)
      (Checked.both (required es principalsField Principals.check)
        (Checked.both (optional es tagSessionField false checkBoolean)
          (Checked.both
            (optional es durationField Template.defaultDuration
              (checkBounded Template.leastDuration Template.greatestDuration))
            (checkExtras .forbidden fields es))))).map
      fun (name, principals, tagSession, duration, _) => ⟨name, principals, tagSession, duration⟩
  | _ => .fail (.notRecord title)

def toValue (spell : FieldName → String) (r : Role) : Value :=
  .object
    [(spell nameField, .text r.name),
      (spell principalsField, r.principals.toValue),
      (spell tagSessionField, .bool r.allowTagSession),
      (spell durationField, .int r.maxSessionDuration)]

end Role

/-- The roles of a group: one, or a list. -/
inductive Roles where
  | one (role : Role)
  | many (roles : List Role)

namespace Roles

def check (v : Value) : Checked Roles :=
  .firstOf
    [("RoleSchema", (Role.check v).map one), ("list[RoleSchema]", (checkList Role.check v).map many)]

def toValue (spell : FieldName → String) : Roles → Value
  | one role => role.toValue spell
  | many roles => .list (roles.map (Role.toValue spell))

end Roles

end AccessGroups.Schema

import AccessGroups.Schema.Role

/-!
The access block as the schema reads it: named groups, each with a policy, a role or both.
-/

set_option autoImplicit false

namespace AccessGroups.Schema

def checkNullable {α : Type} (check : Value → Checked α) : Value → Checked (Option α)
  | .null => .ok none
  | v => (check v).map some

/-- A direct invoke permission granted to a group. -/
structure Policy where
  principals : Principals

namespace Policy

def title : String := "PolicySchema"

def principalsField : FieldName := .single "principals"

def fields : List FieldName := [principalsField]

/-- Checks a policy; what it holds beside its principals does not matter. -/
def check : Value → Checked Policy
  | .map es => (required es principalsField Principals.check).map Policy.mk
  | _ => .fail (.notRecord title)

def toValue (spell : FieldName → String) (p : Policy) : Value :=
  .object [(spell principalsField, p.principals.toValue)]

end Policy

/-- A named access group. -/
structure Group where
  policy : Option Policy
  role : Option Roles

namespace Group

def title : String := "GroupSchema"

def policyField : FieldName := .single "policy"

def roleField : FieldName := .single "role"

def fields : List FieldName := [policyField, roleField]

/-- A group grants something: it has a policy, a role or both. -/
def checkGrants (g : Group) : Checked Group :=
  if g.policy.isNone && g.role.isNone then
    .fail (.rule "Access group must define a policy or a role")
  else .ok g

/-- Checks a group. Whether it grants something is asked only of a group that is otherwise right. -/
def check : Value → Checked Group
  | .map es =>
    (Checked.both (optional es policyField none (checkNullable Policy.check))
      (Checked.both (optional es roleField none (checkNullable Roles.check))
        (checkExtras .forbidden fields es))).bind
      fun (policy, role, _) => checkGrants ⟨policy, role⟩
  | _ => .fail (.notRecord title)

def toValue (spell : FieldName → String) (g : Group) : Value :=
  .object
    [(spell policyField, (g.policy.map (Policy.toValue spell)).getD .null),
      (spell roleField, (g.role.map (Roles.toValue spell)).getD .null)]

end Group

/-- The access block. -/
structure Access where
  groups : Entries Group

namespace Access

def title : String := "AccessSchema"

def groupsField : FieldName := .single "groups"

def fields : List FieldName := [groupsField]

/-- Checks the groups, of which there must be one at least. -/
def checkGroups (v : Value) : Checked (Entries Group) :=
  (checkMapping Group.check v).bind fun groups =>
    if groups.isEmpty then Checked.fail .empty else .ok groups

def check : Value → Checked Access
  | .map es =>
    (Checked.both (required es groupsField checkGroups) (checkExtras .forbidden fields es)).map
      fun (groups, _) => ⟨groups⟩
  | _ => .fail (.notRecord title)

def toValue (spell : FieldName → String) (a : Access) : Value :=
  .object
    [(spell groupsField, .map (a.groups.map fun (name, group) => (name, group.toValue spell)))]

/-- Reads an access block; a mismatch is a fault of the configuration. -/
def validate (v : Value) : Except ConfigFault Access := (check v).mapError .schemaMismatch

end Access

end AccessGroups.Schema

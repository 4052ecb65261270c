import AccessGroups.Proofs.Value.Mapping
import AccessGroups.Template.Role

/-!
Reading resources. What a template's resource says is read off its members, whoever built it: the
function that a permission is for, the resource that it is created after, and the functions that a
role lets its principals invoke.
-/

set_option autoImplicit false

namespace AccessGroups

/-- The member of a mapping under a name, `null` where there is none. -/
def Value.member (v : Value) (name : String) : Value :=
  match v with
  | .map es => (Entries.get? es (.text name)).getD .null
  | _ => .null

theorem Value.member_of_not_truthy {v : Value} (falsy : v.truthy = false) (name : String) :
    v.member name = .null := by
  cases v with
  | map es =>
    have empty : es = [] := by simpa [Value.truthy] using falsy
    rw [empty]
    rfl
  | _ => rfl

/-- A field that can be read is the member. -/
theorem Value.eq_member_of_field {v w : Value} {name : String} (read : v.field name = .ok w) :
    w = v.member name := by
  cases v with
  | map es => exact (Except.ok.inj read).symm
  | _ => cases read

theorem Value.field_of_member {v : Value} {name : String} (given : v.member name ≠ .null) :
    v.field name = .ok (v.member name) := by
  cases v with
  | map es => rfl
  | _ => exact absurd rfl given

theorem Value.ne_null_of_member_map {v : Value} {name : String} {es : Entries Value}
    (given : v.member name = .map es) : v ≠ .null := by
  rintro rfl
  cases given

def Value.listed : Value → List Value
  | .list items => items
  | _ => []

@[simp] theorem Value.member_object_cons (field name : String) (v : Value)
    (rest : List (String × Value)) :
    (Value.object ((field, v) :: rest)).member name =
      if field = name then v else (Value.object rest).member name := by
  by_cases same : field = name <;>
    simp [Value.object, Value.member, Entries.get?, same]

namespace Template

/-- The resource that a resource is created after, where it names one. -/
def dependsOn? (resource : Value) : Option Value :=
  match resource with
  | .map es => Entries.get? es (.text "DependsOn")
  | _ => none

/-- The function of which the value is a reference to its resource name. -/
def referred? (v : Value) : Option Value :=
  match (v.member "Fn::GetAtt").listed with
  | [function, .text "Arn"] => some function
  | _ => none

def isOfType (resource : Value) (type : String) : Bool :=
  Value.same (resource.member "Type") (.text type)

/-- The logical id of the function for which a resource is a permission. -/
def permitted? (resource : Value) : Option String :=
  if isOfType resource "AWS::Lambda::Permission" then
    match referred? ((resource.member "Properties").member "FunctionName") with
    | some (.text id) => some id
    | _ => none
  else none

/-- Whom a permission lets invoke its function. -/
def grantee (resource : Value) : Value := (resource.member "Properties").member "Principal"

def roleName (resource : Value) : Value := (resource.member "Properties").member "RoleName"

/-- How long a session of a role may last. -/
def sessionLimit (resource : Value) : Value :=
  (resource.member "Properties").member "MaxSessionDuration"

/-- What the trust policy of a role lets its principals do. -/
def trustedActions (resource : Value) : List Value :=
  (((resource.member "Properties").member "AssumeRolePolicyDocument").member
    "Statement").listed.flatMap fun statement => (statement.member "Action").oneOrMany

/-- Whether the principals of a role may tag the session. -/
def tagsSession (resource : Value) : Bool :=
  (trustedActions resource).any fun action => Value.same action (.text tagAction)

def statements (resource : Value) : List Value :=
  ((resource.member "Properties").member "Policies").listed.flatMap fun policy =>
    ((policy.member "PolicyDocument").member "Statement").listed

def policyNames (resource : Value) : List Value :=
  ((resource.member "Properties").member "Policies").listed.map (·.member "PolicyName")

/-- What the inline policies of a role are about. -/
def governed (resource : Value) : List Value :=
  (statements resource).flatMap fun statement => (statement.member "Resource").listed

/-- Whom the trust policy of a role lets assume it. -/
def trusted (resource : Value) : List Value :=
  (((resource.member "Properties").member "AssumeRolePolicyDocument").member
    "Statement").listed.flatMap fun statement => ((statement.member "Principal").member "AWS").listed

@[simp] theorem referred?_functionRef (function : Value) :
    referred? (functionRef function) = some function := rfl

@[simp] theorem isOfType_permission (function : Value) (principal : Principal) (previous : Value) :
    isOfType (permission function principal previous) "AWS::Lambda::Permission" = true := by
  simp [isOfType, permission]

@[simp] theorem isOfType_role (name : String) (functions : List Value) (principals : List Principal)
    (tagSession : Bool) (duration : Value) :
    isOfType (role name functions principals tagSession duration) "AWS::Lambda::Permission" =
      false := by
  simp [isOfType, role]

@[simp] theorem isOfType_permission_role (function : Value) (principal : Principal)
    (previous : Value) :
    isOfType (permission function principal previous) "AWS::IAM::Role" = false := by
  simp [isOfType, permission]

@[simp] theorem isOfType_role_role (name : String) (functions : List Value)
    (principals : List Principal) (tagSession : Bool) (duration : Value) :
    isOfType (role name functions principals tagSession duration) "AWS::IAM::Role" = true := by
  simp [isOfType, role]

@[simp] theorem roleName_role (name : String) (functions : List Value)
    (principals : List Principal) (tagSession : Bool) (duration : Value) :
    roleName (role name functions principals tagSession duration) = .text name := by
  simp [roleName, role]

@[simp] theorem policyNames_role (name : String) (functions : List Value) (principals : List Principal)
    (tagSession : Bool) (duration : Value) :
    policyNames (role name functions principals tagSession duration) = [.text name] := by
  simp [policyNames, role, Value.listed]

@[simp] theorem governed_role (name : String) (functions : List Value) (principals : List Principal)
    (tagSession : Bool) (duration : Value) :
    governed (role name functions principals tagSession duration) = functions.map functionRef := by
  simp [governed, statements, role, Value.listed]

@[simp] theorem trusted_role (name : String) (functions : List Value) (principals : List Principal)
    (tagSession : Bool) (duration : Value) :
    trusted (role name functions principals tagSession duration) = principals.map Principal.emitted := by
  simp [trusted, role, Value.listed]

@[simp] theorem trustedActions_role (name : String) (functions : List Value)
    (principals : List Principal) (tagSession : Bool) (duration : Value) :
    trustedActions (role name functions principals tagSession duration) =
      if tagSession then [.text assumeAction, .text tagAction] else [.text assumeAction] := by
  cases tagSession <;>
    simp [trustedActions, role, trustActions, Value.listed, Value.texts, Value.oneOrMany]

@[simp] theorem sessionLimit_role (name : String) (functions : List Value)
    (principals : List Principal) (tagSession : Bool) (duration : Value) :
    sessionLimit (role name functions principals tagSession duration) = duration := by
  simp [sessionLimit, role]

@[simp] theorem tagsSession_role (name : String) (functions : List Value)
    (principals : List Principal) (tagSession : Bool) (duration : Value) :
    tagsSession (role name functions principals tagSession duration) = tagSession := by
  cases tagSession <;> simp [tagsSession, assumeAction, tagAction]

@[simp] theorem permitted?_permission (id : String) (principal : Principal) (previous : Value) :
    permitted? (permission (.text id) principal previous) = some id := by
  simp [permitted?, permission, isOfType]

@[simp] theorem permitted?_role (name : String) (functions : List Value)
    (principals : List Principal) (tagSession : Bool) (duration : Value) :
    permitted? (role name functions principals tagSession duration) = none := by
  simp [permitted?]

@[simp] theorem grantee_permission (function : Value) (principal : Principal) (previous : Value) :
    grantee (permission function principal previous) = principal.emitted := by
  simp [grantee, permission]

@[simp] theorem dependsOn?_role (name : String) (functions : List Value)
    (principals : List Principal) (tagSession : Bool) (duration : Value) :
    dependsOn? (role name functions principals tagSession duration) = none := by
  simp [dependsOn?, role, Value.object, Entries.get?]

/-- A permission names what it is created after unless that is empty. -/
@[simp] theorem dependsOn?_permission (function : Value) (principal : Principal) (previous : Value) :
    dependsOn? (permission function principal previous) =
      if previous.truthy then some previous else none := by
  by_cases given : previous.truthy = true <;>
    simp [dependsOn?, permission, Value.object, Entries.get?, given]

end Template

end AccessGroups

import AccessGroups.Principal

/-!
Names of generated resources. A permission is named after its function and its principal, a role after
its own name.
-/

set_option autoImplicit false

namespace AccessGroups.Identifier

def permissionName (function : String) (principal : Principal) : String :=
  function ++ "PermitInvokeFrom" ++ principal.name

def roleResourceName (role : String) : String := "LambdaAccessRole" ++ fragment role

/-- Only a text can name a role. -/
def roleResourceNameOf (role : Value) : Except Misuse String :=
  (fragmentOf role).map ("LambdaAccessRole" ++ ·)

end AccessGroups.Identifier

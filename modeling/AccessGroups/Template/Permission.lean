import AccessGroups.Principal

/-!
The permission resource: it lets one principal invoke one function. Permissions of one function are
created one after another, each naming the one before it.
-/

set_option autoImplicit false

namespace AccessGroups.Template

def invokeAction : String := "lambda:InvokeFunction"

/-- A reference to a function's resource name, given its logical id. -/
def functionRef (function : Value) : Value :=
  .object [("Fn::GetAtt", .list [function, .text "Arn"])]

/-- The permission of a principal on a function, to be created after `dependsOn` if that is not
empty. -/
def permission (function : Value) (principal : Principal) (dependsOn : Value) : Value :=
  .object <|
    [("Type", .text "AWS::Lambda::Permission"),
      ("Properties", .object
        [("Action", .text invokeAction),
          ("FunctionName", functionRef function),
          ("Principal", principal.emitted)])] ++
    if dependsOn.truthy then [("DependsOn", dependsOn)] else []

/-- Where a permission holds its principal. -/
def principalPlace : List Value := [.text "Properties", .text "Principal"]

end AccessGroups.Template

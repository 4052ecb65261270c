import AccessGroups.Template.Permission

/-!
The role resource: the principals may assume it, and whoever has assumed it may invoke its functions.
-/

set_option autoImplicit false

namespace AccessGroups.Template

def assumeAction : String := "sts:AssumeRole"

def tagAction : String := "sts:TagSession"

def policyVersion : String := "2012-10-17"

/-- Session durations are in seconds. -/
def leastDuration : Int := 3600

def greatestDuration : Int := 43200

def defaultDuration : Int := 3600

/-- What an assuming principal may do: assume the role and, where allowed, tag the session. -/
def trustActions (tagSession : Bool) : Value :=
  if tagSession then .texts [assumeAction, tagAction] else .text assumeAction

def role (name : String) (functions : List Value) (principals : List Principal) (tagSession : Bool)
    (duration : Value) : Value :=
  .object
    [("Type", .text "AWS::IAM::Role"),
      ("Properties", .object
        [("RoleName", .text name),
          ("Policies", .list
            [.object
              [("PolicyName", .text name),
                ("PolicyDocument", .object
                  [("Version", .text policyVersion),
                    ("Statement", .list
                      [.object
                        [("Effect", .text "Allow"),
                          ("Action", .text invokeAction),
                          ("Resource", .list (functions.map functionRef))]])])]]),
          ("AssumeRolePolicyDocument", .object
            [("Version", .text policyVersion),
              ("Statement", .list
                [.object
                  [("Effect", .text "Allow"),
                    ("Action", trustActions tagSession),
                    ("Principal", .object [("AWS", .list (principals.map Principal.emitted))])]])]),
          ("MaxSessionDuration", duration)])]

/-- Where a role holds the principal of the given number. -/
def trustedPlace (number : Nat) : List Value :=
  [.text "Properties", .text "AssumeRolePolicyDocument", .text "Statement", .int 0,
    .text "Principal", .text "AWS", .int number]

/-- Where a role holds its duration. -/
def durationPlace : List Value := [.text "Properties", .text "MaxSessionDuration"]

end AccessGroups.Template

import AccessGroups.Group.Membership
import AccessGroups.Template.Role

/-!
The plan of a pass: the steps that a list of groups asks for, in order. A used group asks first for
one permission per principal and function, the principals outer and the functions inner, and then for
one role per role directive. What is wrong with a policy, a principal or a directive stands in the plan
where the pass has to stop.
-/

set_option autoImplicit false

namespace AccessGroups

/-- A role that a directive asks for. -/
structure RoleRequest where
  group : Value
  /-- The name as it was given, which is not empty. -/
  role : Value
  functions : Members
  principals : Except ConfigFault (List Principal)
  tagSession : Bool
  duration : Value

/-- One step of a pass. -/
inductive Step where
  /-- No function joined the group. -/
  | unused (group : Value)
  | permission (group function : Value) (principal : Principal)
  | role (request : RoleRequest)
  /-- The pass stops here. -/
  | refuse (fault : Fault)

namespace ResolvedGroup

/-- A member of a mapping that is present and not `null`. -/
def given? (v : Value) (name : String) : Option Value :=
  match v with
  | .map es =>
    match Entries.get? es (.text name) with
    | some .null => none
    | found => found
  | _ => none

def principalSteps (g : ResolvedGroup) (raw : Value) : List Step :=
  match Principal.ofValue raw, g.functions with
  | .ok principal, .ok ids => ids.map fun function => .permission g.name function principal
  | .ok _, .error misuse => [.refuse (.misuse misuse)]
  | .error fault, _ => [.refuse (.config fault)]

/-- The steps for a policy. A group may do without one, but a policy needs principals. -/
def policySteps (g : ResolvedGroup) : List Step :=
  if g.policy.isNull then []
  else
    match given? g.policy "principals" with
    | none => [.refuse (.config (.policyWithoutPrincipals g.name))]
    | some principals => principals.oneOrMany.flatMap g.principalSteps

/-- The principals of a role directive; the empty text stands for none. -/
def rolePrincipals : Value → Except ConfigFault (List Principal)
  | .text "" => .ok []
  | v => v.oneOrMany.mapM Principal.ofValue

/-- The step for one role directive: it needs a name and principals. -/
def roleStep (g : ResolvedGroup) (directive : Value) : Step :=
  match directive with
  | .map es =>
    let role := (Entries.get? es (.text "name")).getD .null
    if !role.truthy then .refuse (.config (.roleWithoutName g.name))
    else
      match given? directive "principals" with
      | none => .refuse (.config (.roleWithoutPrincipals g.name role))
      | some principals =>
        .role
          { group := g.name
            role
            functions := g.functions
            principals := rolePrincipals principals
            tagSession := ((Entries.get? es (.text "allowTagSession")).getD .null).truthy
            duration := (given? directive "maxSessionDuration").getD
              (.int Template.defaultDuration) }
  | _ => .refuse (.config (.roleNotMapping g.name directive))

def roleSteps (g : ResolvedGroup) : List Step := g.role.oneOrMany.map g.roleStep

/-- The steps for a group: a group without functions asks for nothing, whatever it declares. -/
def steps (g : ResolvedGroup) : List Step :=
  if g.isUsed then g.policySteps ++ g.roleSteps else [.unused g.name]

end ResolvedGroup

def plan (groups : List ResolvedGroup) : List Step := groups.flatMap ResolvedGroup.steps

end AccessGroups

import AccessGroups.Group.Plan
import AccessGroups.Identifier.ResourceName
import AccessGroups.Template.Collection

/-!
A pass over groups: it takes the steps of their plan against a collection of resources. A name that
is taken is skipped for a permission and is a fault for a role. The permissions of one function form a
chain, each created after the one that the same pass added before it. Whatever was added before a
fault stays.
-/

set_option autoImplicit false

namespace AccessGroups

/-- What a pass has done so far. -/
structure Pass where
  resources : Template.Collection
  /-- For each function, the name of the permission that this pass added for it last. -/
  chain : Entries String
  events : List Log.Event
  /-- Lines for the host's log. -/
  notices : List String

namespace Pass

def start (resources : Template.Collection) : Pass := ⟨resources, [], [], []⟩

def logger : String := "lambdaaccess.emitter"

def report (p : Pass) (event : Log.Event) : Pass := { p with events := p.events ++ [event] }

/-- Tells the host, or else the log, that no function joined a group. -/
def noticeUnused (toHost : Bool) (p : Pass) (group : Value) : Pass :=
  let sentence := "Group \"" ++ group.display ++ "\" is not used"
  if toHost then { p with notices := p.notices ++ ["WARNING: " ++ sentence] }
  else p.report (.about .warning logger group .null sentence)

/-- The name of the permission to which the next one of a function is chained. -/
def lastPermission (p : Pass) (function : Value) : Except Misuse Value :=
  if function.hashable then .ok (((Entries.get? p.chain function).map Value.text).getD .null)
  else .error .operand

/-- Adds the permission of a principal on a function unless its name is taken. -/
def addPermission (p : Pass) (group function : Value) (principal : Principal) :
    Progress Pass Fault :=
  let name := Identifier.permissionName function.display principal
  .ofExcept p ((p.lastPermission function).mapError .misuse) fun previous =>
    let resource := Template.permission function principal previous
    .ofExcept p ((p.resources.addIfAbsent (.text name) resource).mapError .misuse)
      fun (resources, added) =>
        if added then
          .done <| { p with resources, chain := Entries.put p.chain function name }.report
            (.about .debug logger group function
              ("Added " ++ name ++ " for principal " ++ Log.preview principal.emitted))
        else .done p

/-- Adds a role, whose name must be free. A role without principals is left out. -/
def addRole (p : Pass) (request : RoleRequest) : Progress Pass Fault :=
  let name := Identifier.roleResourceName request.role.display
  .ofExcept p ((p.resources.contains (.text name)).mapError .misuse) fun taken =>
    if taken then .stop p (.config (.duplicateRole request.group request.role))
    else
      .ofExcept p (request.principals.mapError .config) fun principals =>
        if principals.isEmpty then
          .done <| p.report (.about .debug logger request.group .null
            ("Skipping role " ++ request.role.display ++ " without principals"))
        else
          .ofExcept p (request.functions.mapError .misuse) fun functions =>
            let resource := Template.role request.role.display functions principals
              request.tagSession request.duration
            .ofExcept p ((p.resources.addIfAbsent (.text name) resource).mapError .misuse)
              fun (resources, _) =>
                .done <| { p with resources }.report (.about .debug logger request.group .null
                  ("Added " ++ name ++ " covering " ++ toString functions.length ++
                    " function(s)"))

def take (toHost : Bool) (p : Pass) : Step → Progress Pass Fault
  | .unused group => .done (p.noticeUnused toHost group)
  | .permission group function principal => p.addPermission group function principal
  | .role request => p.addRole request
  | .refuse fault => .stop p fault

end Pass

def emit (toHost : Bool) (groups : List ResolvedGroup) (resources : Template.Collection) :
    Progress Pass Fault :=
  Progress.walk (Pass.take toHost) (Pass.start resources) (plan groups)

/-- What resolving memberships and emitting their resources has done. -/
structure Build where
  resources : Template.Collection
  events : List Log.Event
  notices : List String

/-- Resolves the memberships of functions in groups and emits the resources of all groups. Nothing is
emitted unless every membership is resolved. -/
def build (scheme : Identifier.IdScheme) (toHost : Bool) (groups functions : Value)
    (resources : Template.Collection) : Progress Build Fault :=
  let run := resolve scheme groups functions
  match run.fault? with
  | some fault => .stop ⟨resources, run.reached.events, []⟩ fault
  | none =>
    let pass := emit toHost (run.reached.groups.map Prod.snd) resources
    { reached :=
        ⟨pass.reached.resources, run.reached.events ++ pass.reached.events, pass.reached.notices⟩
      fault? := pass.fault? }

end AccessGroups

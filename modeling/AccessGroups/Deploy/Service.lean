import AccessGroups.Deploy.Registration
import AccessGroups.Deploy.Sharing
import AccessGroups.Settings

/-!
Deployment of a service. A service declares functions, a provider with its access block, and template
resources. Deploying resolves the memberships and emits the resources of all groups into the service's
own template; without functions or without an access block there is nothing to do. What a resource
shares with the declaration stays linked with it.
-/

set_option autoImplicit false

namespace AccessGroups.Deploy

def deployHook : String := "package:createDeploymentArtifacts"

/-- What a host brings to a deployment. -/
structure Plugin where
  scheme : Identifier.IdScheme
  settings : Settings
  /-- Whether the host takes log lines itself. -/
  hasHostLog : Bool

/-- A service after some work on it, with what was reported on the way. -/
structure Deployment where
  service : Linked
  events : List Log.Event
  /-- Lines for the host's log. -/
  lines : List String

/-- The resources of a service: the block that holds them and the collection in it. -/
structure OpenResources where
  block : Entries Value
  collection : Template.Collection

namespace OpenResources

/-- Finds the resources of a service; a block or a collection that is missing is an empty one. -/
def ofService (service : Entries Value) : Except Misuse OpenResources := do
  let block ← match (Entries.get? service blockKey).getD .null with
    | .null => .ok []
    | .map es => .ok es
    | _ => .error .member
  match (Entries.get? block collectionKey).getD .null with
  | .null => return ⟨block, Template.Collection.empty⟩
  | v => return ⟨block, ⟨v⟩⟩

/-- The service with a collection in place of its resources. -/
def putBack (service : Entries Value) (r : OpenResources) (after : Template.Collection) :
    Entries Value :=
  Entries.put service blockKey (.map (Entries.put r.block collectionKey after.backing))

end OpenResources

namespace Plugin

def hooks : List String := [deployHook]

def logger : String := "lambdaaccess.plugin"

def hostLine (p : Plugin) (message : String) : String := p.settings.logPrefix ++ ": " ++ message

/-- Passes a message on to the host, or else to the log. -/
def log (p : Plugin) (service : Linked) (message : Value) : Deployment :=
  let line := p.hostLine message.display
  if p.hasHostLog then ⟨service, [], [line]⟩ else ⟨service, [.plain .info logger line], []⟩

/-- The functions of a service and its access block, where there is something to do. -/
def task? (service : Entries Value) : Except Misuse (Option (Entries Value × Value)) := do
  let provider := (Entries.get? service (.text "provider")).getD .null
  let access ← if provider.truthy then provider.field "access" else .ok .null
  match (Entries.get? service (.text "functions")).getD .null, access with
  | _, .null => return none
  | .map functions, access => return some (functions, access)
  | _, _ => return none

/-- The declared groups of an access block, which is checked against the schema if the settings ask
for it. -/
def declaredGroups (p : Plugin) (access : Value) : Except Fault Value := do
  let groups ← (access.field "groups").mapError .misuse
  if groups.isNull then .error (.config .missingGroups)
  else if p.settings.validateSchema then
    let _ ← (Schema.Access.validate access).mapError .config
    return groups
  else return groups

def emitInto (p : Plugin) (service : Entries Value) (links : Links) (roster : Roster) :
    Progress Deployment Fault :=
  let resolved : Deployment := ⟨⟨.map service, links⟩, roster.events, []⟩
  .ofExcept resolved ((OpenResources.ofService service).mapError .misuse) fun resources =>
    let groups := roster.groups.map Prod.snd
    let pass := emit p.hasHostLog groups resources.collection
    let after := pass.reached.resources
    { reached :=
        { service :=
            ⟨.map (resources.putBack service after),
              linkAdded groups resources.collection after links⟩
          events := roster.events ++ pass.reached.events
          lines := pass.reached.notices.map p.hostLine }
      fault? := pass.fault? }

/-- Deploys a service. Up to the end of resolving memberships the service is left as it is. -/
def deploy (p : Plugin) (service : Linked) : Progress Deployment Fault :=
  let untouched : Deployment := ⟨service, [], []⟩
  .ofExcept untouched (service.value.entries.mapError .misuse) fun entries =>
    .ofExcept untouched ((task? entries).mapError .misuse) fun
      | none => .done untouched
      | some (functions, access) =>
        .ofExcept untouched (p.declaredGroups access) fun groups =>
          let run := resolve p.scheme groups (.map functions)
          match run.fault? with
          | some fault => .stop ⟨service, run.reached.events, []⟩ fault
          | none => p.emitInto entries service.links run.reached

def callHook (p : Plugin) (name : Value) (service : Linked) : Progress Deployment Fault :=
  if hooks.any fun hook => Value.same (.text hook) name then p.deploy service
  else .stop ⟨service, [], []⟩ (.misuse (if name.hashable then .key else .operand))

end Plugin

/-- What is done with a service: the plugin works on it, or it is edited from outside. -/
inductive Action where
  | deploy
  | hook (name : Value)
  | log (message : Value)
  | set (path : List Value) (value : Value)
  | remove (path : List Value)

/-- An edit from outside; one that is not possible changes nothing. -/
def edit (service : Linked) (edited : Except Misuse Linked) : Progress Deployment Fault :=
  .ofExcept ⟨service, [], []⟩ (edited.mapError .misuse) fun after => .done ⟨after, [], []⟩

def Plugin.act (p : Plugin) (service : Linked) : Action → Progress Deployment Fault
  | .deploy => p.deploy service
  | .hook name => p.callHook name service
  | .log message => .done (p.log service message)
  | .set path value => edit service (service.setAt path value)
  | .remove path => edit service (service.removeAt path)

/-- Does one thing after another, whatever the outcome of each. -/
def Plugin.actAll (p : Plugin) (service : Linked) : List Action → List (Progress Deployment Fault)
  | [] => []
  | action :: rest =>
    let run := p.act service action
    run :: p.actAll run.reached.service rest

end AccessGroups.Deploy

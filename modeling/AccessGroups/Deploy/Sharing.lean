import AccessGroups.Group.Pass
import AccessGroups.Value.Linked

/-!
What a template shares with the declaration it was made from. A principal that is emitted as it is
given, and the duration of a role, are not copied: the resource holds the declared value itself. So the
two places are linked, and whoever edits one of them edits both.
-/

set_option autoImplicit false

namespace AccessGroups.Deploy

/-- A resource that a group asks for, and what it shares with the declaration: pairs of a place in the
service and a place in the resource. -/
structure Sharing where
  resource : String
  shared : List (Place × Place)

/-- The key of a service under which its resources block is. -/
def blockKey : Value := .text "resources"

/-- The key of a resources block under which the collection is. -/
def collectionKey : Value := .text "Resources"

/-- Where a service declares a group. -/
def groupPlace (group : Value) : Place :=
  [.text "provider", .text "access", .text "groups", group]

/-- Only a reference to an intrinsic function is emitted as it is given. -/
def sharedPrincipal (principal : Principal) (declared emitted : Place) : List (Place × Place) :=
  match principal with
  | .literal _ => []
  | .exported .. => [(declared, emitted)]

def principalSharings (g : ResolvedGroup) (declared : Place) (raw : Value) : List Sharing :=
  match Principal.ofValue raw, g.functions with
  | .ok principal, .ok ids => ids.map fun function =>
    { resource := Identifier.permissionName function.display principal
      shared := sharedPrincipal principal declared Template.principalPlace }
  | _, _ => []

def policySharings (g : ResolvedGroup) : List Sharing :=
  let declared := groupPlace g.name ++ [.text "policy", .text "principals"]
  ((ResolvedGroup.given? g.policy "principals").getD .null).oneOrManyAt.flatMap fun (path, raw) =>
    principalSharings g (declared ++ path) raw

/-- A duration is shared if the directive gives one. -/
def sharedDuration (directive : Value) (declared : Place) : List (Place × Place) :=
  match ResolvedGroup.given? directive "maxSessionDuration" with
  | some _ => [(declared ++ [.text "maxSessionDuration"], Template.durationPlace)]
  | none => []

/-- What a role shares of the principals of its directive. -/
def sharedTrust (directive : Value) (declared : Place) (principals : List Principal) :
    List (Place × Place) :=
  let given := (ResolvedGroup.given? directive "principals").getD .null
  let paths := given.oneOrManyAt.map Prod.fst
  (principals.zip paths).zipIdx.flatMap fun ((principal, path), number) =>
    sharedPrincipal principal (declared ++ .text "principals" :: path)
      (Template.trustedPlace number)

/-- What the role of one directive shares. A role without principals is not emitted. -/
def roleSharing? (g : ResolvedGroup) (declared : Place) (directive : Value) : Option Sharing :=
  match g.roleStep directive with
  | .role request =>
    match request.principals with
    | .ok [] => none
    | .ok principals =>
      some
        { resource := Identifier.roleResourceName request.role.display
          shared := sharedDuration directive declared ++ sharedTrust directive declared principals }
    | .error _ => none
  | _ => none

/-- What the resources of a group share, in the order in which the group asks for them. -/
def sharings (g : ResolvedGroup) : List Sharing :=
  if g.isUsed then
    policySharings g ++ g.role.oneOrManyAt.filterMap fun (path, directive) =>
      roleSharing? g (groupPlace g.name ++ .text "role" :: path) directive
  else []

def addedNames (before after : Template.Collection) : List Value :=
  match before.backing, after.backing with
  | .map old, .map new => (Entries.keys new).drop old.length
  | _, _ => []

/-- Links what the resources added by a pass share with the declaration. A name was added for the first
resource that asks for it. -/
def linkAdded (groups : List ResolvedGroup) (before after : Template.Collection) (links : Links) :
    Links :=
  let asked := groups.flatMap sharings
  let found := (addedNames before after).flatMap fun name =>
    match asked.find? fun s => Value.same (.text s.resource) name with
    | some s => s.shared.map fun (declared, emitted) =>
      (declared, [blockKey, collectionKey, name] ++ emitted)
    | none => []
  found.foldl (fun links (declared, emitted) => links.link declared emitted) links

end AccessGroups.Deploy

import AccessGroups.Proofs.Deploy.Course
import AccessGroups.Proofs.Deploy.Frame
import AccessGroups.Proofs.Group.Resolution
import AccessGroups.Proofs.Schema.Directive

/-!
Deployed roles. A role is made from its directive as that is declared, also where the schema is checked: the
schema says whether a block will do, and what it reads the block as is not what is deployed. How far a
deployed role is the role that the schema reads is said here.
-/

set_option autoImplicit false

namespace AccessGroups.Deploy

/-- How far the resource of a role is what its directive says and what the schema reads. -/
structure RoleAgrees (directive : Value) (role : Schema.Role) (resource : Value) : Prop where
  name : Template.roleName resource = .text (directive.member "name").display
  /-- A name that is given as a text is read unchanged. -/
  nameRead : ∀ s, directive.member "name" = .text s → Template.roleName resource = .text role.name
  tagSession : Template.tagsSession resource = (directive.member "allowTagSession").truthy
  /-- Whatever is spelled grants tagging, and anything else grants it where it is read so. -/
  tagSessionRead : directive.member Schema.Role.tagSessionField.inner = .null →
    Template.tagsSession resource =
      (role.allowTagSession || Schema.isSpelled (directive.member "allowTagSession"))
  duration : Template.sessionLimit resource = ResolvedGroup.sessionDuration directive
  durationRead : directive.member Schema.Role.durationField.inner = .null →
    Schema.checkInteger (Template.sessionLimit resource) = .ok role.maxSessionDuration
  /-- A duration that is a number, or that is left out, equals the one that is read. -/
  durationSame : directive.member Schema.Role.durationField.inner = .null →
    Schema.isSpelled (Template.sessionLimit resource) = false →
    Value.same (Template.sessionLimit resource) (.int role.maxSessionDuration) = true
  durationBounds : Template.leastDuration ≤ role.maxSessionDuration ∧
    role.maxSessionDuration ≤ Template.greatestDuration

theorem roleAgrees_of_check {directive : Value} {role : Schema.Role}
    (read : Schema.Role.check directive = .ok role) (functions : List Value)
    (principals : List Principal) :
    RoleAgrees directive role
      (Template.role (directive.member "name").display functions principals
        (directive.member "allowTagSession").truthy (ResolvedGroup.sessionDuration directive)) where
  name := Template.roleName_role _ _ _ _ _
  nameRead := by
    intro s given
    have text := Schema.Role.name_of_check read
    rw [given] at text
    rw [Template.roleName_role, given, ← Except.ok.inj text]
    rfl
  tagSession := Template.tagsSession_role _ _ _ _ _
  tagSessionRead := by
    intro plain
    rw [Template.tagsSession_role]
    exact Schema.Role.tagSession_of_check read plain
  duration := Template.sessionLimit_role _ _ _ _ _
  durationRead := by
    intro plain
    rw [Template.sessionLimit_role]
    exact Schema.Role.duration_of_check read plain
  durationSame := by
    intro plain unspelled
    rw [Template.sessionLimit_role] at unspelled ⊢
    exact Schema.same_of_checkInteger (Schema.Role.duration_of_check read plain) unspelled
  durationBounds := Schema.Role.duration_bounds read

theorem Plugin.asked_of_added (p : Plugin) (service : Linked) {name : String} {resource : Value}
    (member : (.text name, resource) ∈ resourceEntries (p.deploy service).reached.service.value)
    (added : name ∉ (resourceEntries service.value).names) :
    ∃ functions groups, p.declaredGroups (accessOf service.value) = .ok groups ∧
      (resolve p.scheme groups functions).fault? = none ∧
      ∃ step ∈ plan ((resolve p.scheme groups functions).reached.groups.map Prod.snd),
        step.AsksFor name resource := by
  have course := deploy_course p service
  generalize p.deploy service = run at *
  cases course with
  | idle => exact absurd ((Entries.mem_names_iff _ _).mpr ⟨resource, member⟩) added
  | halted events fault => exact absurd ((Entries.mem_names_iff _ _).mpr ⟨resource, member⟩) added
  | @emitted es functions groups resources stands declared given accepted resolved opened =>
    refine ⟨.map functions, groups, accepted, resolved, ?_⟩
    have grown := emit_grown p.hasHostLog
      ((resolve p.scheme groups (.map functions)).reached.groups.map Prod.snd) resources.collection
    rw [emitInto_value p _ _ opened, resourceEntries, OpenResources.resourcesOf_putBack] at member
    rw [stands] at added
    obtain ⟨block, collection⟩ := resources
    generalize (emit p.hasHostLog _ collection).reached.resources = after at *
    cases grown with
    | kept =>
      obtain ⟨backing⟩ := collection
      cases backing with
      | map fs =>
        rw [OpenResources.resourceEntries_of_opened opened rfl] at added
        exact absurd ((Entries.mem_names_iff _ _).mpr ⟨resource, member⟩) added
      | _ => cases member
    | appended fs new free once asked =>
      rw [OpenResources.resourceEntries_of_opened opened rfl] at added
      rcases List.mem_append.mp member with old | new
      · exact absurd ((Entries.mem_names_iff _ _).mpr ⟨resource, old⟩) added
      · obtain ⟨e, among, same⟩ := List.mem_map.mp new
        cases same
        exact asked e among

/-- A role that a deployment adds is requested by a directive of a declared group. -/
theorem Plugin.directive_of_added (p : Plugin) (service : Linked) {name : String}
    {resource : Value}
    (member : (.text name, resource) ∈ resourceEntries (p.deploy service).reached.service.value)
    (added : name ∉ (resourceEntries service.value).names)
    (isRole : Template.isOfType resource "AWS::IAM::Role" = true) :
    ∃ declared, (accessOf service.value).member "groups" = .map declared ∧
      ∃ group ∈ declared, ∃ directive ∈ (group.2.member "role").oneOrMany,
        name = Identifier.roleResourceName (directive.member "name").display ∧
        ∃ functions principals, resource =
          Template.role (directive.member "name").display functions principals
            (directive.member "allowTagSession").truthy
            (ResolvedGroup.sessionDuration directive) := by
  obtain ⟨functions, groups, accepted, resolved, step, planned, asks⟩ :=
    p.asked_of_added service member added
  obtain ⟨given, -, -⟩ := groups_of_declaredGroups accepted
  cases groups with
  | map declared =>
    refine ⟨declared, given, ?_⟩
    obtain ⟨g, among, inner⟩ := List.mem_flatMap.mp planned
    obtain ⟨e, listed, rfl⟩ := List.mem_map.mp among
    obtain ⟨group, belongs, -, -, role⟩ := resolve_carries p.scheme declared functions e listed
    cases step with
    | role request =>
      obtain ⟨named, functions, principals, -, -, rfl⟩ := asks
      obtain ⟨directive, stated, rfl⟩ := ResolvedGroup.directive_of_mem_steps inner
      exact ⟨group, belongs, directive, role ▸ stated, named, functions, principals, rfl⟩
    | permission group function principal =>
      obtain ⟨-, previous, rfl⟩ := asks
      rw [Template.isOfType_permission_role] at isRole
      cases isRole
    | _ => cases asks
  | _ => cases resolved

/-- Wherever the schema accepts an access block, each role that a deployment adds is made from a directive
of the block, and the schema reads that directive as a role with which the resource agrees. -/
theorem deploy_roles (p : Plugin) (service : Linked) {parsed : Schema.Access}
    (valid : Schema.Access.validate (accessOf service.value) = .ok parsed) :
    ∀ name resource,
      (.text name, resource) ∈ resourceEntries (p.deploy service).reached.service.value →
      name ∉ (resourceEntries service.value).names →
      Template.isOfType resource "AWS::IAM::Role" = true →
      ∃ declared declaration g directive role,
        (accessOf service.value).member "groups" = .map declared ∧
        parsed.ReadsAs declared declaration g ∧
        (directive, role) ∈ (declaration.member "role").oneOrMany.zip g.roles ∧
        Schema.Role.check directive = .ok role ∧
        name = Identifier.roleResourceName (directive.member "name").display ∧
        RoleAgrees directive role resource := by
  intro name resource member added isRole
  obtain ⟨declared, given, group, among, directive, stated, named, functions, principals, rfl⟩ :=
    p.directive_of_added service member added isRole
  have read : Schema.Access.check (accessOf service.value) = .ok parsed :=
    eq_ok_of_mapError valid
  obtain ⟨g, reads⟩ := Schema.Access.readsAs_of_check read given among
  have each := Schema.Group.roles_of_check reads.read
  obtain ⟨role, paired⟩ := exists_pair_of_forall₂ each stated
  have checked := List.forall₂_zip each paired
  exact ⟨declared, group.2, g, directive, role, given, reads, paired, checked, named,
    roleAgrees_of_check checked functions principals⟩

theorem deploy_roles_declared :
    (Schema.Access.validate (accessOf declaredService.value)).isOk = true ∧
      ∃ resource,
        (.text "LambdaAccessRoleOps", resource) ∈
          resourceEntries (checkingPlugin.deploy declaredService).reached.service.value ∧
        Template.isOfType resource "AWS::IAM::Role" = true ∧
        ∃ directive role, Schema.Role.check directive = .ok role ∧
          RoleAgrees directive role resource := by
  have accepted : (Schema.Access.validate (accessOf declaredService.value)).isOk = true := rfl
  refine ⟨accepted, ?_⟩
  cases valid : Schema.Access.validate (accessOf declaredService.value) with
  | error fault =>
    rw [valid] at accepted
    cases accepted
  | ok parsed =>
    have member : (.text "LambdaAccessRoleOps", _) ∈
        resourceEntries (checkingPlugin.deploy declaredService).reached.service.value :=
      List.mem_of_getElem? (i := 3) rfl
    obtain ⟨-, -, -, directive, role, -, -, -, read, -, agrees⟩ :=
      deploy_roles checkingPlugin declaredService valid _ _ member List.not_mem_nil rfl
    exact ⟨_, member, rfl, directive, role, read, agrees⟩

/-- A service with a role whose truth value and duration are spelled. -/
def spellingService : Linked :=
  .ofValue (.object
    [("provider", .object [("access", .object [("groups", .object [("api", .object
        [("role", .object
          [("name", .text "ops"), ("principals", .text "111111111111"),
            ("allowTagSession", .text "false"), ("maxSessionDuration", .text "7200")])])])])]),
      ("functions", .object [("load", .object [("allowAccess", .text "api")])])])

/-- Where a directive spells what it says, the deployed role is not the role that the schema reads. -/
theorem deploy_departs_from_schema :
    ∃ parsed g role resource,
      Schema.Access.validate (accessOf spellingService.value) = .ok parsed ∧
      Entries.get? parsed.groups (.text "api") = some g ∧ g.roles = [role] ∧
      (checkingPlugin.deploy spellingService).fault?.isNone = true ∧
      resourceEntries (checkingPlugin.deploy spellingService).reached.service.value =
        [(.text "LambdaAccessRoleOps", resource)] ∧
      role.allowTagSession = false ∧ Template.tagsSession resource = true ∧
      role.maxSessionDuration = 7200 ∧ Template.sessionLimit resource = .text "7200" :=
  ⟨_, _, _, _, rfl, rfl, rfl, rfl, rfl, rfl, rfl, rfl, rfl⟩

end AccessGroups.Deploy

import AccessGroups.Proofs.Deploy.History
import AccessGroups.Proofs.Deploy.Joining
import AccessGroups.Proofs.Group.Enrolment
import AccessGroups.Proofs.Group.Refusal
import AccessGroups.Proofs.Schema.Accepted

/-!
What a deployment fails with. It is stopped at the access block, at the memberships of the functions or at the
emission of the groups. Behind an access block that the schema accepts only a few faults of the configuration
are left, and a value is misused only where an access block is no mapping or a function has no logical id.
-/

set_option autoImplicit false

namespace AccessGroups.Deploy

/-- What a service can still be refused for when the schema accepts its access block: a reference to a group
that is not declared, and, of the groups that are joined, the name of a role that is taken or empty and a
principal that grants nothing. -/
inductive Residual (service : Value) : ConfigFault → Prop
  | reference {functions : Entries Value} {function : Value × Value} {name : Value}
      (declared : functionsOf service = .map functions) (among : function ∈ functions)
      (names : name ∈ namedGroups function.2) : Residual service (.unknownGroup function.1 name)
  | taken {group : Value × Value} {directive : Value} (joined : IsJoined service group)
      (stated : directive ∈ (group.2.member "role").oneOrMany) :
      Residual service (.duplicateRole group.1 (directive.member "name"))
  | unnamed {group : Value × Value} {directive : Value} (joined : IsJoined service group)
      (stated : directive ∈ (group.2.member "role").oneOrMany)
      (empty : directive.member "name" = .text "" ∨ directive.member "name" = .bytes []) :
      Residual service (.roleWithoutName group.1)
  | principal {group : Value × Value} {raw : Value} (joined : IsJoined service group)
      (listed : raw ∈ listedPrincipals (group.2.member "policy") (group.2.member "role"))
      (spurious : Schema.Spurious raw) : Residual service (.badPrincipal raw)

section Accepted

variable {group : Value × Value} {read : Schema.Group}
  (accepted : Schema.Group.check group.2 = .ok read)

include accepted

theorem isSingle_of_listed {raw : Value}
    (listed : raw ∈ listedPrincipals (group.2.member "policy") (group.2.member "role")) :
    raw.isSingle = true := by
  rcases List.mem_append.mp listed with inPolicy | inRole
  · rcases Schema.Group.policy_of_check accepted with absent | ⟨policy, checked⟩
    · rw [absent] at inPolicy
      cases inPolicy
    · exact Schema.Principals.singles_of_check (Schema.Policy.principals_of_check checked) raw inPolicy
  · obtain ⟨directive, stated, among⟩ := List.mem_flatMap.mp inRole
    obtain ⟨role, checked⟩ := Schema.Group.role_of_check accepted stated
    exact Schema.Principals.singles_of_check (Schema.Role.principals_of_check checked) raw among

/-- Of what can stop a pass at a group, an accepted group leaves the residual causes. -/
theorem residual_of_cause {service : Value} {g : ResolvedGroup} (joined : IsJoined service group)
    (name : g.name = group.1) (policy : g.policy = group.2.member "policy")
    (role : g.role = group.2.member "role") {fault : ConfigFault} (cause : g.Cause fault) :
    Residual service fault := by
  cases cause with
  | policy given missing =>
    -- A policy without principals is not accepted.
    rw [policy] at given missing
    rcases Schema.Group.policy_of_check accepted with absent | ⟨policy, checked⟩
    · rw [absent] at given
      cases given
    · rw [Schema.Principals.isNull_of_check (Schema.Policy.principals_of_check checked)] at missing
      cases missing
  | principal listed unreadable =>
    rw [policy, role] at listed
    obtain ⟨spurious, rfl⟩ :=
      Schema.spurious_of_unreadable (isSingle_of_listed accepted listed) unreadable
    exact .principal joined listed spurious
  | directive stated other =>
    rw [role] at stated
    obtain ⟨read, checked⟩ := Schema.Group.role_of_check accepted stated
    obtain ⟨es, mapping, -⟩ := Schema.Role.of_check checked
    exact absurd mapping (other es)
  | unnamed stated empty =>
    rw [role] at stated
    obtain ⟨read, checked⟩ := Schema.Group.role_of_check accepted stated
    rw [name]
    exact .unnamed joined stated
      (Schema.isEmpty_of_checkText (Schema.Role.name_of_check checked) empty)
  | bare stated missing =>
    rw [role] at stated
    obtain ⟨read, checked⟩ := Schema.Group.role_of_check accepted stated
    rw [Schema.Principals.isNull_of_check (Schema.Role.principals_of_check checked)] at missing
    cases missing
  | taken stated =>
    rw [role] at stated
    rw [name]
    exact .taken joined stated

end Accepted

namespace Plugin

/-- Where a deployment is stopped: at the declared groups, at the memberships, or at the emission of the
groups into a mapping of resources. -/
inductive Obstacle (p : Plugin) (service : Value) (functions : Entries Value) (fault : Fault) : Prop
  | groups (refused : p.declaredGroups (accessOf service) = .error fault)
  | memberships {groups : Value} (accepted : p.declaredGroups (accessOf service) = .ok groups)
      (unresolved : (resolve p.scheme groups (.map functions)).fault? = some fault)
  | emission {groups : Value} {es : Entries Value}
      (accepted : p.declaredGroups (accessOf service) = .ok groups)
      (resolved : (resolve p.scheme groups (.map functions)).fault? = none)
      (refused : (emit p.hasHostLog
        ((resolve p.scheme groups (.map functions)).reached.groups.map Prod.snd)
        ⟨.map es⟩).fault? = some fault)

theorem obstacle_of_failed (p : Plugin) {service : Linked} {functions : Entries Value}
    (receptive : Receptive service.value) (declared : functionsOf service.value = .map functions)
    (given : accessOf service.value ≠ .null) {fault : Fault}
    (failed : (p.deploy service).fault? = some fault) :
    p.Obstacle service.value functions fault := by
  cases deploy_reach p declared given with
  | refused refused stopped =>
    obtain rfl := Option.some.inj (stopped.symm.trans failed)
    exact .groups refused
  | unresolved accepted unresolved stopped =>
    obtain rfl := Option.some.inj (stopped.symm.trans failed)
    exact .memberships accepted unresolved
  | ready ready =>
    obtain ⟨resources, fs, opened, collection⟩ := (ready.stands ▸ receptive).opened
    rw [deploy_of_opened p ready opened, collection] at failed
    exact .emission ready.accepted ready.resolved failed

/-- The groups of an accepted block are the declared ones, and they are a mapping of accepted groups. -/
theorem declaredGroups_of_validate (p : Plugin) {access : Value} {parsed : Schema.Access}
    (valid : Schema.Access.validate access = .ok parsed) :
    ∃ groups, access.member "groups" = .map groups ∧
      p.declaredGroups access = .ok (.map groups) ∧
      ∀ group ∈ groups, ∃ read, Schema.Group.check group.2 = .ok read := by
  have checked := eq_ok_of_mapError valid
  obtain ⟨groups, named, declares, -, each⟩ := Schema.Access.of_check checked
  refine ⟨groups, declares, ?_, ?_⟩
  · rw [declaredGroups_of_given p (by simp [declares]), valid, declares]
    split <;> rfl
  · intro group member
    obtain ⟨read, -, -, checked⟩ := exists_right_of_forall₂ each group member
    exact ⟨read.2, checked⟩

/-- A deployment of an accepted access block is refused for a residual cause, or it is stopped by a function
that asks to join a group and has no logical id. -/
theorem residual_of_obstacle (p : Plugin) {service : Value} {functions : Entries Value}
    {parsed : Schema.Access} (texts : p.scheme.GivesTexts)
    (valid : Schema.Access.validate (accessOf service) = .ok parsed)
    (declared : functionsOf service = .map functions)
    (joins : ∀ function ∈ functions, JoinsByName function.2) (distinct : DistinctGroups service)
    {fault : Fault} (obstacle : p.Obstacle service functions fault) :
    (∃ cause, fault = .config cause ∧ Residual service cause) ∨
      ∃ function ∈ functions, (function.2.member "allowAccess").truthy = true ∧
        ∃ misuse, p.scheme function.1 = .error misuse ∧ fault = .misuse misuse := by
  obtain ⟨groups, declares, taken, readable⟩ := declaredGroups_of_validate p valid
  cases obstacle with
  | groups refused =>
    rw [taken] at refused
    cases refused
  | memberships accepted unresolved =>
    rw [taken] at accepted
    cases accepted
    have mappings : ∀ group ∈ groups, ∃ es, group.2 = .map es := by
      intro group member
      obtain ⟨read, checked⟩ := readable group member
      exact Schema.Group.mapping_of_check checked
    cases unresolved_of_fault mappings joins unresolved with
    | reference among names => exact Or.inl ⟨_, rfl, .reference declared among names⟩
    | nameless among asks unnamed => exact Or.inr ⟨_, among, asks, _, unnamed, rfl⟩
  | emission accepted resolved refused =>
    rw [taken] at accepted
    cases accepted
    have ids := resolvedGroups_texts texts groups functions
    rw [← groups_of_resolved declares distinct resolved] at ids
    obtain ⟨g, among, used, cause, rfl, caused⟩ := cause_of_emit ids refused
    obtain ⟨group, joined, name, policy, role⟩ :=
      isJoined_of_isUsed declares declared distinct resolved among used
    obtain ⟨others, given, member⟩ := joined.declared
    obtain rfl : others = groups := Value.map.inj (given.symm.trans declares)
    obtain ⟨read, checked⟩ := readable group member
    exact Or.inl ⟨cause, rfl, residual_of_cause checked joined name policy role caused⟩

/-- Where the schema accepts the access block, the functions have texts for names and name their groups by
texts, and there is a place for resources, a deployment under the default scheme fails for a residual cause,
if it fails. -/
theorem deploy_residual (p : Plugin) (service : Linked) (functions : Entries Value)
    (parsed : Schema.Access) (naming : p.scheme = Identifier.defaultScheme)
    (valid : Schema.Access.validate (accessOf service.value) = .ok parsed)
    (declared : functionsOf service.value = .map functions)
    (named : ∀ function ∈ functions, ∃ name, function.1 = .text name)
    (joins : ∀ function ∈ functions, JoinsByName function.2)
    (distinct : DistinctGroups service.value) (receptive : Receptive service.value) (fault : Fault)
    (failed : (p.deploy service).fault? = some fault) :
    ∃ cause, fault = .config cause ∧ Residual service.value cause := by
  have texts : p.scheme.GivesTexts := naming ▸ Identifier.defaultScheme_givesTexts
  obtain ⟨groups, declares, -⟩ := p.declaredGroups_of_validate valid
  have given : accessOf service.value ≠ .null := Value.ne_null_of_member_map declares
  have obstacle := p.obstacle_of_failed receptive declared given failed
  rcases p.residual_of_obstacle texts valid declared joins distinct obstacle with
    residual | ⟨function, among, -, misuse, unnamed, -⟩
  · exact residual
  · obtain ⟨name, text⟩ := named function among
    rw [naming, text] at unnamed
    cases unnamed

end Plugin

/-- A service of one function that joins a group, with something for an access block. -/
def serviceWith (access : Value) : Linked :=
  .ofValue (.object
    [("provider", .object [("access", access)]),
      ("functions", .object [("load", .object [("allowAccess", .text "api")])])])

theorem serviceWith_joins (access : Value) {functions : Entries Value}
    (declared : functionsOf (serviceWith access).value = .map functions) :
    ∀ function ∈ functions, (∃ name, function.1 = .text name) ∧ JoinsByName function.2 := by
  cases declared
  intro function among
  obtain rfl := List.mem_singleton.mp among
  exact ⟨⟨"load", rfl⟩, Or.inr ⟨_, rfl⟩, Or.inr (Or.inl ⟨"api", by simp⟩)⟩

theorem serviceWith_receptive (access : Value) : Receptive (serviceWith access).value :=
  ⟨Or.inl rfl, Or.inl rfl⟩

/-- A block that the schema accepts, with a truth value among the principals. -/
def spuriousBlock : Value :=
  .object [("groups", .object [("api", .object [("policy", .object
    [("principals", .list [.text "111111111111", .bool true])])])])]

theorem Plugin.deploy_residual_spurious :
    (checkingPlugin.deploy (serviceWith spuriousBlock)).fault? =
        some (.config (.badPrincipal (.bool true))) ∧
      Residual (serviceWith spuriousBlock).value (.badPrincipal (.bool true)) := by
  have failed : (checkingPlugin.deploy (serviceWith spuriousBlock)).fault? =
      some (.config (.badPrincipal (.bool true))) := rfl
  have joins := serviceWith_joins spuriousBlock rfl
  have distinct : DistinctGroups (serviceWith spuriousBlock).value := by
    intro groups declares
    cases declares
    exact List.pairwise_singleton _ _
  obtain ⟨cause, same, residual⟩ := deploy_residual checkingPlugin (serviceWith spuriousBlock) _ _
    rfl rfl rfl (fun function among => (joins function among).1)
    (fun function among => (joins function among).2) distinct (serviceWith_receptive _) _ failed
  cases same
  exact ⟨failed, residual⟩

/-- An access block that is there and is no mapping. -/
structure Misshapen (access : Value) : Prop where
  given : access ≠ .null
  other : ∀ es, access ≠ .map es

namespace Plugin

theorem other_of_misuse (p : Plugin) (checks : p.settings.validateSchema = true) {access : Value}
    {misuse : Misuse} (misused : p.declaredGroups access = .error (.misuse misuse)) :
    misuse = .member ∧ ∀ es, access ≠ .map es := by
  cases access with
  | map es =>
    by_cases missing : (Value.map es).member "groups" = .null
    · rw [declaredGroups_of_missing p missing] at misused
      cases misused
    · rw [declaredGroups_of_given p missing, if_pos checks] at misused
      cases valid : Schema.Access.validate (.map es) <;> rw [valid] at misused <;> cases misused
  | _ =>
    cases misused
    exact ⟨rfl, by simp⟩

theorem declaredGroups_of_misshapen (p : Plugin) {access : Value}
    (other : ∀ es, access ≠ .map es) : p.declaredGroups access = .error (.misuse .member) := by
  cases access with
  | map es => exact absurd rfl (other es)
  | _ => rfl

/-- A deployment that checks the schema and whose functions name their groups by texts misuses a value where
the access block is there and is no mapping, and otherwise only where a function that asks to join a group has
no logical id. -/
theorem deploy_misuse (p : Plugin) (service : Linked) (functions : Entries Value)
    (texts : p.scheme.GivesTexts) (checks : p.settings.validateSchema = true)
    (provider : ∃ es, service.value.member "provider" = .map es)
    (declared : functionsOf service.value = .map functions)
    (joins : ∀ function ∈ functions, JoinsByName function.2)
    (distinct : DistinctGroups service.value) (receptive : Receptive service.value) :
    (Misshapen (accessOf service.value) →
        (p.deploy service).fault? = some (.misuse .member)) ∧
      ∀ misuse, (p.deploy service).fault? = some (.misuse misuse) →
        misuse = .member ∧ Misshapen (accessOf service.value) ∨
          ∃ function ∈ functions, (function.2.member "allowAccess").truthy = true ∧
            p.scheme function.1 = .error misuse := by
  constructor
  · intro misshapen
    obtain ⟨es, -, course⟩ := deploy_declared p declared misshapen.given
    rw [course, declaredGroups_of_misshapen p misshapen.other]
    rfl
  · intro misuse failed
    by_cases given : accessOf service.value = .null
    · have idle : Idle service.value :=
        ⟨mapping_of_functionsOf declared, fun _ => provider, Or.inr given⟩
      rw [(deploy_lawful p service).idle idle] at failed
      cases failed
    · have obstacle := p.obstacle_of_failed receptive declared given failed
      -- Once the block has passed the check, only a name can still be misused.
      by_cases valid : ∃ parsed, Schema.Access.validate (accessOf service.value) = .ok parsed
      · obtain ⟨parsed, valid⟩ := valid
        rcases p.residual_of_obstacle texts valid declared joins distinct obstacle with
          ⟨cause, same, -⟩ | ⟨function, among, asks, other, unnamed, same⟩
        · cases same
        · cases same
          exact Or.inr ⟨function, among, asks, unnamed⟩
      · cases obstacle with
        | groups refused =>
          obtain ⟨kind, other⟩ := p.other_of_misuse checks refused
          exact Or.inl ⟨kind, given, other⟩
        | memberships accepted => exact absurd ((groups_of_declaredGroups accepted).2.2 checks) valid
        | emission accepted => exact absurd ((groups_of_declaredGroups accepted).2.2 checks) valid

end Plugin

theorem Plugin.deploy_misuse_listed :
    Misshapen (.list []) ∧
      (checkingPlugin.deploy (serviceWith (.list []))).fault? = some (.misuse .member) := by
  have misshapen : Misshapen (.list []) := ⟨by simp, by simp⟩
  have joins := serviceWith_joins (.list []) rfl
  have distinct : DistinctGroups (serviceWith (.list [])).value := by
    intro groups declares
    cases declares
  exact ⟨misshapen, (deploy_misuse checkingPlugin (serviceWith (.list [])) _
    Identifier.defaultScheme_givesTexts rfl ⟨_, rfl⟩ rfl
    (fun function among => (joins function among).2) distinct (serviceWith_receptive _)).1 misshapen⟩

/-- A text for an access block is misused although the schema, which is asked to check it, has a fault of the
configuration to tell. -/
theorem Plugin.deploy_misuses_text :
    checkingPlugin.settings.validateSchema = true ∧
      (∃ es, (serviceWith (.text "api")).value.member "provider" = .map es) ∧
      (∃ functions, functionsOf (serviceWith (.text "api")).value = .map functions ∧
        ∀ function ∈ functions, (∃ name, function.1 = .text name) ∧ JoinsByName function.2) ∧
      Receptive (serviceWith (.text "api")).value ∧
      (∃ issues, Schema.Access.validate (accessOf (serviceWith (.text "api")).value) =
        .error (.schemaMismatch issues)) ∧
      (checkingPlugin.deploy (serviceWith (.text "api"))).fault? = some (.misuse .member) :=
  ⟨rfl, ⟨_, rfl⟩, ⟨_, rfl, serviceWith_joins (.text "api") rfl⟩, serviceWith_receptive _, ⟨_, rfl⟩,
    rfl⟩

end AccessGroups.Deploy

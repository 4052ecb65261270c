import AccessGroups.Deploy.Service
import AccessGroups.Proofs.Group.Build
import AccessGroups.Proofs.Template.Reading

/-!
The course of a deployment. The functions and the access block of a service are members of it, so whether
there is something to do can be read off the service. What there is to do goes by the declared groups, which
the schema may refuse, and by the memberships of the functions in them.
-/

set_option autoImplicit false

namespace AccessGroups.Deploy

def functionsOf (service : Value) : Value := service.member "functions"

def accessOf (service : Value) : Value := (service.member "provider").member "access"

def resourcesOf (service : Value) : Value := (service.member "resources").member "Resources"

/-- The entries of the template resources, of which there are none unless these are a mapping. -/
def resourceEntries (service : Value) : Entries Value :=
  match resourcesOf service with
  | .map es => es
  | _ => []

/-- There is nothing to deploy: the functions are no mapping, or there is no access block. A provider that
is neither empty nor a mapping does not tell. -/
structure Idle (service : Value) : Prop where
  mapping : ∃ es, service = .map es
  provider : (service.member "provider").truthy = true → ∃ es, service.member "provider" = .map es
  nothing : (∀ functions, functionsOf service ≠ .map functions) ∨ accessOf service = .null

theorem mapping_of_functionsOf {service : Value} {functions : Entries Value}
    (declared : functionsOf service = .map functions) : ∃ es, service = .map es := by
  cases service with
  | map es => exact ⟨es, rfl⟩
  | _ => cases declared

namespace Plugin

/-- What functions and an access block are to the plugin: without either there is no task. -/
def assignment? (functions access : Value) : Option (Entries Value × Value) :=
  match functions, access with
  | _, .null => none
  | .map functions, access => some (functions, access)
  | _, _ => none

theorem assignment?_eq_some_iff (declared given : Value) (functions : Entries Value)
    (access : Value) :
    assignment? declared given = some (functions, access) ↔
      declared = .map functions ∧ given = access ∧ access ≠ .null := by
  unfold assignment?
  split
  · constructor
    · intro assigned
      cases assigned
    · rintro ⟨-, rfl, apart⟩
      exact absurd rfl apart
  · rename_i apart
    constructor
    · intro assigned
      cases assigned
      exact ⟨rfl, rfl, apart⟩
    · rintro ⟨same, rfl, -⟩
      cases same
      rfl
  · rename_i unnamed _
    constructor
    · intro assigned
      cases assigned
    · rintro ⟨named, -, -⟩
      exact absurd named (unnamed functions)

/-- The access block that a provider gives, which an empty one does not. -/
def accessIn (provider : Value) : Except Misuse Value :=
  if provider.truthy then provider.field "access" else .ok .null

theorem member_of_accessIn {provider access : Value} (found : accessIn provider = .ok access) :
    provider.member "access" = access := by
  unfold accessIn at found
  split at found
  · exact (Value.eq_member_of_field found).symm
  · rename_i empty
    rw [Value.member_of_not_truthy (by simpa using empty)]
    exact Except.ok.inj found

theorem accessIn_of_readable {provider : Value}
    (readable : provider.truthy = true → ∃ es, provider = .map es) :
    accessIn provider = .ok (provider.member "access") := by
  unfold accessIn
  split
  · rename_i given
    obtain ⟨es, rfl⟩ := readable given
    rfl
  · rename_i empty
    rw [Value.member_of_not_truthy (by simpa using empty)]

theorem accessIn_of_member {provider : Value} (given : provider.member "access" ≠ .null) :
    accessIn provider = .ok (provider.member "access") := by
  refine accessIn_of_readable fun _ => ?_
  cases provider with
  | map es => exact ⟨es, rfl⟩
  | _ => exact absurd rfl given

theorem task?_eq (es : Entries Value) :
    task? es = (accessIn ((Value.map es).member "provider")).map
      (assignment? (functionsOf (.map es))) := by
  have provider : (Entries.get? es (.text "provider")).getD .null =
      (Value.map es).member "provider" := rfl
  have functions : (Entries.get? es (.text "functions")).getD .null = functionsOf (.map es) := rfl
  unfold task? accessIn
  rw [provider, functions]
  by_cases given : ((Value.map es).member "provider").truthy = true
  · rw [if_pos given, if_pos given]
    cases ((Value.map es).member "provider").field "access" with
    | error misuse => rfl
    | ok access =>
      cases functionsOf (.map es) <;> cases access <;> rfl
  · rw [if_neg given, if_neg given]
    rfl

/-- The task of a service is made of the functions and the access block that it declares. -/
theorem eq_of_task? {es functions : Entries Value} {access : Value}
    (task : task? es = .ok (some (functions, access))) :
    functionsOf (.map es) = .map functions ∧ accessOf (.map es) = access ∧ access ≠ .null := by
  rw [task?_eq] at task
  cases found : accessIn ((Value.map es).member "provider") with
  | error misuse =>
    rw [found] at task
    cases task
  | ok given =>
    rw [found] at task
    have same : accessOf (.map es) = given := member_of_accessIn found
    rw [same]
    exact (assignment?_eq_some_iff _ _ _ _).mp (Except.ok.inj task)

theorem task?_of_declared {es functions : Entries Value}
    (declared : functionsOf (.map es) = .map functions) (given : accessOf (.map es) ≠ .null) :
    task? es = .ok (some (functions, accessOf (.map es))) := by
  rw [task?_eq, accessIn_of_member given]
  exact congrArg Except.ok ((assignment?_eq_some_iff _ _ _ _).mpr ⟨declared, rfl, given⟩)

theorem task?_of_idle {es : Entries Value} (idle : Idle (.map es)) : task? es = .ok none := by
  rw [task?_eq, accessIn_of_readable idle.provider]
  refine congrArg Except.ok (Option.eq_none_iff_forall_ne_some.mpr ?_)
  rintro ⟨functions, access⟩ some
  obtain ⟨declared, given, apart⟩ := (assignment?_eq_some_iff _ _ _ _).mp some
  rcases idle.nothing with unnamed | nothing
  · exact unnamed functions declared
  · exact apart (given.symm.trans nothing)

/-- How a deployment may go: there is nothing to do, it is stopped before it touches the service, or the
resources of the resolved groups are emitted. -/
inductive Course (p : Plugin) (service : Linked) : Progress Deployment Fault → Prop
  | idle : Course p service (.done ⟨service, [], []⟩)
  | halted (events : List Log.Event) (fault : Fault) :
      Course p service (.stop ⟨service, events, []⟩ fault)
  | emitted {es functions : Entries Value} {groups : Value} {resources : OpenResources}
      (stands : service.value = .map es) (declared : functionsOf service.value = .map functions)
      (given : accessOf service.value ≠ .null)
      (accepted : p.declaredGroups (accessOf service.value) = .ok groups)
      (resolved : (resolve p.scheme groups (.map functions)).fault? = none)
      (opened : OpenResources.ofService es = .ok resources) :
      Course p service
        (p.emitInto es service.links (resolve p.scheme groups (.map functions)).reached)

theorem emitInto_unopened (p : Plugin) {es : Entries Value} (links : Links) (roster : Roster)
    {misuse : Misuse} (unopened : OpenResources.ofService es = .error misuse) :
    p.emitInto es links roster = .stop ⟨⟨.map es, links⟩, roster.events, []⟩ (.misuse misuse) := by
  simp only [emitInto, unopened, Progress.ofExcept_mapError_error]

theorem emitInto_value (p : Plugin) {es : Entries Value} (links : Links) (roster : Roster)
    {resources : OpenResources} (opened : OpenResources.ofService es = .ok resources) :
    (p.emitInto es links roster).reached.service.value =
      .map (resources.putBack es
        (emit p.hasHostLog (roster.groups.map Prod.snd) resources.collection).reached.resources) := by
  simp only [emitInto, opened, Progress.ofExcept_mapError_ok]

theorem deploy_course (p : Plugin) (service : Linked) : Course p service (p.deploy service) := by
  obtain ⟨value, links⟩ := service
  unfold deploy
  cases value with
  | map es =>
    simp only [Value.entries, Progress.ofExcept_mapError_ok]
    cases task : task? es with
    | error misuse => exact .halted _ _
    | ok assignment =>
      cases assignment with
      | none => exact .idle
      | some assignment =>
        obtain ⟨functions, access⟩ := assignment
        obtain ⟨declared, rfl, given⟩ := eq_of_task? task
        simp only [Progress.ofExcept_mapError_ok]
        cases accepted : p.declaredGroups (accessOf (.map es)) with
        | error fault => exact .halted _ _
        | ok groups =>
          simp only [Progress.ofExcept]
          cases resolved : (resolve p.scheme groups (.map functions)).fault? with
          | some fault => exact .halted _ _
          | none =>
            cases opened : OpenResources.ofService es with
            | error misuse =>
              rw [emitInto_unopened p links _ opened]
              exact .halted _ _
            | ok resources => exact .emitted rfl declared given accepted resolved opened
  | _ => exact .halted _ _

/-- A deployment of declared functions with an access block goes by the groups that are accepted. -/
theorem deploy_declared (p : Plugin) {service : Linked} {functions : Entries Value}
    (declared : functionsOf service.value = .map functions)
    (given : accessOf service.value ≠ .null) :
    ∃ es, service.value = .map es ∧
      p.deploy service =
        .ofExcept ⟨service, [], []⟩ (p.declaredGroups (accessOf service.value)) fun groups =>
          match (resolve p.scheme groups (.map functions)).fault? with
          | some fault =>
            .stop ⟨service, (resolve p.scheme groups (.map functions)).reached.events, []⟩ fault
          | none =>
            p.emitInto es service.links (resolve p.scheme groups (.map functions)).reached := by
  obtain ⟨value, links⟩ := service
  cases value with
  | map es =>
    refine ⟨es, rfl, ?_⟩
    unfold deploy
    simp only [Value.entries, Progress.ofExcept_mapError_ok]
    rw [task?_of_declared declared given]
    rfl
  | _ => exact absurd rfl given

/-- A service that is ready for its resources: it declares functions, its groups are accepted, and all
memberships are resolved. -/
structure Ready (p : Plugin) (service : Value) (es functions : Entries Value) (groups : Value) :
    Prop where
  stands : service = .map es
  declared : functionsOf service = .map functions
  accepted : p.declaredGroups (accessOf service) = .ok groups
  resolved : (resolve p.scheme groups (.map functions)).fault? = none

theorem Ready.given {p : Plugin} {service groups : Value} {es functions : Entries Value}
    (ready : p.Ready service es functions groups) : accessOf service ≠ .null := by
  intro null
  have accepted := ready.accepted
  rw [null] at accepted
  cases accepted

theorem deploy_of_opened (p : Plugin) {service : Linked} {es functions : Entries Value}
    {groups : Value} (ready : p.Ready service.value es functions groups) {resources : OpenResources}
    (opened : OpenResources.ofService es = .ok resources) :
    let roster := (resolve p.scheme groups (.map functions)).reached
    let pass := emit p.hasHostLog (roster.groups.map Prod.snd) resources.collection
    p.deploy service =
      { reached :=
          { service :=
              ⟨.map (resources.putBack es pass.reached.resources),
                linkAdded (roster.groups.map Prod.snd) resources.collection pass.reached.resources
                  service.links⟩
            events := roster.events ++ pass.reached.events
            lines := pass.reached.notices.map p.hostLine }
        fault? := pass.fault? } := by
  obtain ⟨same, stands, course⟩ := deploy_declared p ready.declared ready.given
  obtain rfl : same = es := Value.map.inj (stands.symm.trans ready.stands)
  rw [course, ready.accepted]
  simp only [Progress.ofExcept, ready.resolved, emitInto, opened, Except.mapError]

/-- How far a deployment with something to do gets: it is stopped at the declared groups or at the
memberships, or the service is ready for its resources. -/
inductive Reach (p : Plugin) (service : Linked) (functions : Entries Value) : Prop
  | refused {fault : Fault} (refused : p.declaredGroups (accessOf service.value) = .error fault)
      (stopped : (p.deploy service).fault? = some fault)
  | unresolved {groups : Value} {fault : Fault}
      (accepted : p.declaredGroups (accessOf service.value) = .ok groups)
      (unresolved : (resolve p.scheme groups (.map functions)).fault? = some fault)
      (stopped : (p.deploy service).fault? = some fault)
  | ready {es : Entries Value} {groups : Value} (ready : p.Ready service.value es functions groups)

theorem deploy_reach (p : Plugin) {service : Linked} {functions : Entries Value}
    (declared : functionsOf service.value = .map functions)
    (given : accessOf service.value ≠ .null) : p.Reach service functions := by
  obtain ⟨es, stands, course⟩ := deploy_declared p declared given
  cases accepted : p.declaredGroups (accessOf service.value) with
  | error fault => exact .refused accepted (by rw [course, accepted]; rfl)
  | ok groups =>
    cases resolved : (resolve p.scheme groups (.map functions)).fault? with
    | none => exact .ready ⟨stands, declared, accepted, resolved⟩
    | some fault =>
      refine .unresolved accepted resolved ?_
      simp only [course, accepted, Progress.ofExcept, resolved]
      rfl

def withSchemaCheck (p : Plugin) (checks : Bool) : Plugin :=
  { p with settings := { p.settings with validateSchema := checks } }

theorem declaredGroups_of_missing (p : Plugin) {access : Entries Value}
    (missing : (Value.map access).member "groups" = .null) :
    p.declaredGroups (.map access) = .error (.config .missingGroups) := by
  have read : (Value.map access).field "groups" = .ok .null := congrArg Except.ok missing
  unfold declaredGroups
  rw [read]
  rfl

/-- Groups that are given are the declared ones where the schema does not object. -/
theorem declaredGroups_of_given (p : Plugin) {access : Value}
    (given : access.member "groups" ≠ .null) :
    p.declaredGroups access =
      if p.settings.validateSchema then
        ((Schema.Access.validate access).map fun _ => access.member "groups").mapError .config
      else .ok (access.member "groups") := by
  have present : (access.member "groups").isNull = false := by
    cases found : access.member "groups" with
    | null => exact absurd found given
    | _ => rfl
  unfold declaredGroups
  rw [Value.field_of_member given]
  simp only [Except.mapError, bind, Except.bind, present, Bool.false_eq_true, ↓reduceIte]
  cases Schema.Access.validate access <;> rfl

/-- Groups that are accepted are those of the access block, and the schema does not object. -/
theorem groups_of_declaredGroups {p : Plugin} {access groups : Value}
    (accepted : p.declaredGroups access = .ok groups) :
    access.member "groups" = groups ∧ groups ≠ .null ∧
      (p.settings.validateSchema = true → ∃ parsed, Schema.Access.validate access = .ok parsed) := by
  by_cases missing : access.member "groups" = .null
  · cases access with
    | map es =>
      rw [declaredGroups_of_missing p missing] at accepted
      cases accepted
    | _ => cases accepted
  · rw [declaredGroups_of_given p missing] at accepted
    by_cases checks : p.settings.validateSchema = true
    · rw [if_pos checks] at accepted
      cases valid : Schema.Access.validate access with
      | error fault =>
        rw [valid] at accepted
        cases accepted
      | ok parsed =>
        rw [valid] at accepted
        cases accepted
        exact ⟨rfl, missing, fun _ => ⟨parsed, rfl⟩⟩
    · rw [if_neg checks] at accepted
      cases accepted
      exact ⟨rfl, missing, fun given => absurd given checks⟩

/-- Whether the schema is checked makes no difference to a block that passes the check. -/
theorem declaredGroups_withSchemaCheck (p : Plugin) (checks : Bool) {access : Value}
    {parsed : Schema.Access} (accepted : Schema.Access.validate access = .ok parsed) :
    (p.withSchemaCheck checks).declaredGroups access = p.declaredGroups access := by
  unfold declaredGroups withSchemaCheck
  rw [accepted]
  cases access.field "groups" with
  | error misuse => rfl
  | ok groups =>
    simp only [Except.mapError, bind, Except.bind]
    cases groups.isNull <;> cases checks <;> cases p.settings.validateSchema <;> rfl

theorem deploy_withSchemaCheck (p : Plugin) (checks : Bool) {service : Linked}
    {parsed : Schema.Access}
    (accepted : Schema.Access.validate (accessOf service.value) = .ok parsed) :
    (p.withSchemaCheck checks).deploy service = p.deploy service := by
  obtain ⟨value, links⟩ := service
  unfold deploy
  cases value with
  | map es =>
    simp only [Value.entries, Progress.ofExcept_mapError_ok]
    cases task : task? es with
    | error misuse => rfl
    | ok assignment =>
      cases assignment with
      | none => rfl
      | some assignment =>
        obtain ⟨functions, access⟩ := assignment
        obtain ⟨-, rfl, -⟩ := eq_of_task? task
        simp only [Progress.ofExcept_mapError_ok,
          declaredGroups_withSchemaCheck p checks accepted]
        rfl
  | _ => rfl

end Plugin

def checkingPlugin : Plugin :=
  ⟨Identifier.defaultScheme, { Settings.default with validateSchema := true }, true⟩

/-- A service with declared groups and functions, without template resources. -/
def declaredService : Linked :=
  .ofValue (.object
    [("provider", .object [("access", .object [("groups", .map declaredGroups)])]),
      ("functions", .map declaredFunctions)])

end AccessGroups.Deploy

import AccessGroups.Proofs.Group.Directives
import AccessGroups.Proofs.Group.Narrowing
import AccessGroups.Proofs.Group.Separation

/-!
The same principals in a policy and in a role. Both are read alike: a pass over one is stopped where
a pass over the other is, and otherwise the policy grants to just those principals that the role
trusts. Only the empty text is read differently. A role takes it for no principals, and a policy for
a principal.
-/

set_option autoImplicit false

namespace AccessGroups

def policyGroup (name : Value) (ids : List String) (principals : Value) : ResolvedGroup :=
  ⟨name, .ok (ids.map .text), .object [("principals", principals)], .null⟩

/-- A directive that gives a role's name and its principals and nothing else. -/
def directiveFor (role : String) (principals : Value) : Value :=
  .object [("name", .text role), ("principals", principals)]

@[simp] theorem name_directiveFor (role : String) (principals : Value) :
    (directiveFor role principals).member "name" = .text role := by
  simp [directiveFor]

@[simp] theorem principals_directiveFor (role : String) (principals : Value) :
    (directiveFor role principals).member "principals" = principals := by
  simp [directiveFor]

def roleGroup (name : Value) (ids : List String) (role : String) (principals : Value) : ResolvedGroup :=
  ⟨name, .ok (ids.map .text), .null, directiveFor role principals⟩

/-- The fault of reading principals, if one of them cannot be read. -/
def readingFault? (raws : List Value) : Option Fault :=
  match raws.mapM Principal.ofValue with
  | .ok _ => none
  | .error fault => some (.config fault)

theorem readingFault?_cons (raw : Value) (rest : List Value) :
    readingFault? (raw :: rest) =
      match Principal.ofValue raw with
      | .ok _ => readingFault? rest
      | .error fault => some (.config fault) := by
  simp only [readingFault?, List.mapM_cons]
  cases Principal.ofValue raw with
  | error fault => rfl
  | ok principal =>
    cases rest.mapM Principal.ofValue <;> rfl

theorem exists_principals_of_readingFault? {raws : List Value} (readable : readingFault? raws = none) :
    ∃ principals, raws.mapM Principal.ofValue = .ok principals := by
  unfold readingFault? at readable
  split at readable
  · rename_i principals read
    exact ⟨principals, read⟩
  · cases readable

theorem badPrincipal_of_readingFault? {raws : List Value} {fault : Fault}
    (failed : readingFault? raws = some fault) :
    ∃ raw ∈ raws, fault = .config (.badPrincipal raw) := by
  unfold readingFault? at failed
  split at failed
  · cases failed
  · rename_i cause unread
    cases failed
    obtain ⟨raw, among, unreadable⟩ := ResolvedGroup.exists_unreadable unread
    exact ⟨raw, among, congrArg Fault.config (Principal.badPrincipal_of_ofValue unreadable)⟩

/-- The steps for the principals of a policy are refused for the first that cannot be read. -/
theorem refusal?_principalSteps {g : ResolvedGroup} {functions : List Value}
    (members : g.functions = .ok functions) (taken : List String) (raws : List Value) :
    refusal? taken (raws.flatMap g.principalSteps) = readingFault? raws := by
  induction raws generalizing taken with
  | nil => rfl
  | cons raw rest ih =>
    rw [List.flatMap_cons, refusal?_append, ih, readingFault?_cons, ResolvedGroup.principalSteps,
      members]
    cases Principal.ofValue raw with
    | error fault => rfl
    | ok principal =>
      have none := (refusal?_eq_none_iff taken _).mpr
        (Lighter.admitted_permissions taken g.name principal functions)
      simp only [none, Option.none_or]

/-- The principals of a role can be read when those of a policy can, and else have the same fault. -/
theorem rolePrincipals_cases (principals : Value) :
    (∃ trusted, ResolvedGroup.rolePrincipals principals = .ok trusted ∧
      readingFault? principals.oneOrMany = none) ∨
    ∃ fault, ResolvedGroup.rolePrincipals principals = .error fault ∧
      readingFault? principals.oneOrMany = some (.config fault) := by
  by_cases empty : principals = .text ""
  · rw [empty]
    exact .inl ⟨[], rfl, rfl⟩
  · rw [ResolvedGroup.rolePrincipals_of_ne empty]
    unfold readingFault?
    cases principals.oneOrMany.mapM Principal.ofValue with
    | ok trusted => exact .inl ⟨trusted, rfl, rfl⟩
    | error fault => exact .inr ⟨fault, rfl, rfl⟩

section Groups

variable (toHost : Bool) (group : Value) (ids : List String) (role : String) (principals : Value)

theorem policyGroup_texts : ∀ g ∈ [policyGroup group ids principals], g.HasTextIds := by
  intro g member
  rw [List.mem_singleton.mp member]
  exact ⟨ids, rfl⟩

theorem roleGroup_texts : ∀ g ∈ [roleGroup group ids role principals], g.HasTextIds := by
  intro g member
  rw [List.mem_singleton.mp member]
  exact ⟨ids, rfl⟩

theorem policyPrincipals_policyGroup :
    (policyGroup group ids principals).policyPrincipals = principals.oneOrMany := by
  simp [ResolvedGroup.policyPrincipals, policyGroup]

theorem mem_items_policyGroup {item : Item}
    (member : item ∈ items [policyGroup group ids principals]) :
    ∃ raw ∈ principals.oneOrMany, ∃ principal, Principal.ofValue raw = .ok principal ∧
      ∃ function, item = .permission function principal := by
  obtain ⟨g, among, inside⟩ := List.mem_flatMap.mp member
  rw [List.mem_singleton.mp among] at inside
  rcases ResolvedGroup.mem_items_cases inside with
    ⟨raw, listed, principal, read, function, -, rfl⟩ | ⟨directive, stated, -⟩
  · rw [policyPrincipals_policyGroup] at listed
    exact ⟨raw, listed, principal, read, function, rfl⟩
  · cases stated

/-- A policy asks for nothing just when it has no principals. -/
theorem items_policyGroup_eq_nil_iff (joined : ids ≠ [])
    (readable : readingFault? principals.oneOrMany = none) :
    items [policyGroup group ids principals] = [] ↔ principals.oneOrMany = [] := by
  constructor
  · intro nothing
    by_contra some
    obtain ⟨raw, rest, listed⟩ := List.exists_cons_of_ne_nil some
    obtain ⟨id, others, functions⟩ := List.exists_cons_of_ne_nil joined
    obtain ⟨granted, read⟩ := exists_principals_of_readingFault? readable
    obtain ⟨principal, here⟩ := ResolvedGroup.readable_of_mapM read raw (by simp [listed])
    have asked : Item.permission (.text id) principal ∈ (policyGroup group ids principals).items := by
      apply ResolvedGroup.mem_items_of_principal _ _ here
      · simp [policyGroup, ResolvedGroup.ids, functions]
      · simp [policyPrincipals_policyGroup, listed]
    have member : Item.permission (.text id) principal ∈ items [policyGroup group ids principals] :=
      List.mem_flatMap.mpr ⟨_, List.mem_singleton_self _, asked⟩
    rw [nothing] at member
    cases member
  · intro none
    rw [List.eq_nil_iff_forall_not_mem]
    intro item member
    obtain ⟨raw, listed, -⟩ := mem_items_policyGroup group ids principals member
    rw [none] at listed
    cases listed

theorem items_roleGroup {trusted : List Principal} (joined : ids ≠ [])
    (read : ResolvedGroup.rolePrincipals principals = .ok trusted) :
    items [roleGroup group ids role principals] =
      if trusted.isEmpty then []
      else [.role role (ids.map .text) trusted false (.int Template.defaultDuration)] := by
  have used : (roleGroup group ids role principals).ids.isEmpty = false := by
    simpa [roleGroup, ResolvedGroup.ids] using joined
  have directives : (roleGroup group ids role principals).role.oneOrMany =
      [directiveFor role principals] := rfl
  have policy : (roleGroup group ids role principals).policyPrincipals = [] := rfl
  rw [items, List.flatMap_cons, List.flatMap_nil, List.append_nil, ResolvedGroup.items, used,
    if_neg Bool.false_ne_true, ResolvedGroup.roleItems, directives, ResolvedGroup.policyItems,
    policy, List.flatMap_nil, List.nil_append, List.filterMap_cons,
    ResolvedGroup.roleItem?, principals_directiveFor, read]
  cases trusted <;> rfl

def policyAdditions : List (String × Value) :=
  linked [] (fresh [] (items [policyGroup group ids principals]))

def roleAdditions : List (String × Value) :=
  linked [] (fresh [] (items [roleGroup group ids role principals]))

theorem granted_of_mem_policyAdditions {e : String × Value}
    (member : e ∈ policyAdditions group ids principals) :
    Template.isOfType e.2 "AWS::Lambda::Permission" = true ∧
      ∃ raw ∈ principals.oneOrMany, Template.grantee e.2 = Principal.emittedForm raw := by
  obtain ⟨item, among, previous, -, made⟩ := mem_linked member
  obtain ⟨raw, listed, principal, read, function, rfl⟩ :=
    mem_items_policyGroup group ids principals ((fresh_sublist _ _).subset among)
  rw [made]
  refine ⟨Template.isOfType_permission _ _ _, raw, listed, ?_⟩
  exact (Template.grantee_permission _ _ _).trans (Principal.emitted_of_ofValue read)

theorem policyAdditions_eq_nil_iff (joined : ids ≠ [])
    (readable : readingFault? principals.oneOrMany = none) :
    policyAdditions group ids principals = [] ↔ principals.oneOrMany = [] := by
  rw [← items_policyGroup_eq_nil_iff group ids principals joined readable, policyAdditions]
  cases items [policyGroup group ids principals] with
  | nil => simp [fresh, linked]
  | cons item rest => simp [fresh, linked]

/-- A role with principals adds itself, and one without adds nothing. -/
theorem roleAdditions_cases {trusted : List Principal} (joined : ids ≠ [])
    (read : ResolvedGroup.rolePrincipals principals = .ok trusted) :
    (trusted = [] ∧ roleAdditions group ids role principals = []) ∨
      ∃ e : String × Value, trusted ≠ [] ∧ roleAdditions group ids role principals = [e] ∧
        Template.isOfType e.2 "AWS::IAM::Role" = true ∧
        Template.trusted e.2 = trusted.map Principal.emitted := by
  rw [roleAdditions, items_roleGroup group ids role principals joined read]
  cases trusted with
  | nil => exact .inl ⟨rfl, rfl⟩
  | cons first others =>
    refine .inr ⟨_, List.cons_ne_nil first others, rfl, ?_, ?_⟩
    · exact Template.isOfType_role_role _ _ _ _ _
    · exact Template.trusted_role _ _ _ _ _

/-- Principals other than the empty text are granted to just when they are trusted. -/
theorem additions_alike (joined : ids ≠ []) (other : principals ≠ .text "")
    {trusted : List Principal} (read : ResolvedGroup.rolePrincipals principals = .ok trusted)
    (readable : readingFault? principals.oneOrMany = none) :
    (policyAdditions group ids principals = [] ↔ roleAdditions group ids role principals = []) ∧
      ∀ e ∈ policyAdditions group ids principals, ∃ r ∈ roleAdditions group ids role principals,
        Template.grantee e.2 ∈ Template.trusted r.2 := by
  have forms : trusted.map Principal.emitted = principals.oneOrMany.map Principal.emittedForm := by
    rw [ResolvedGroup.rolePrincipals_of_ne other] at read
    exact emitted_of_mapM read
  have nothing : trusted = [] ↔ principals.oneOrMany = [] := by
    rw [← List.map_eq_nil_iff (f := Principal.emitted), forms, List.map_eq_nil_iff]
  rw [policyAdditions_eq_nil_iff group ids principals joined readable, ← nothing]
  rcases roleAdditions_cases group ids role principals joined read with
    ⟨none, added⟩ | ⟨r, some, added, -, trusts⟩
  · refine ⟨iff_of_true none added, fun e member => ?_⟩
    obtain ⟨-, raw, listed, -⟩ := granted_of_mem_policyAdditions group ids principals member
    rw [nothing.mp none] at listed
    cases listed
  · rw [added]
    refine ⟨iff_of_false some (List.cons_ne_nil r []), fun e member => ?_⟩
    obtain ⟨-, raw, listed, granted⟩ := granted_of_mem_policyAdditions group ids principals member
    refine ⟨r, List.mem_singleton_self r, ?_⟩
    rw [trusts, forms, granted]
    exact List.mem_map_of_mem listed

end Groups

section Pass

variable (toHost : Bool) (group : Value) {ids : List String} (joined : ids ≠ []) {role : String}
  (named : role ≠ "") {principals : Value} (given : principals ≠ .null)

include joined given

theorem emit_policyGroup_fault? :
    (emit toHost [policyGroup group ids principals] Template.Collection.empty).fault? =
      readingFault? principals.oneOrMany := by
  have present : ((policyGroup group ids principals).policy.member "principals").isNull = false := by
    rw [Bool.eq_false_iff]
    intro null
    exact given (Value.eq_null_of_isNull (by simpa [policyGroup] using null))
  have used : (policyGroup group ids principals).isUsed = true := by
    simpa [ResolvedGroup.isUsed, Members.isEmpty, policyGroup] using joined
  have planned : plan [policyGroup group ids principals] =
      principals.oneOrMany.flatMap (policyGroup group ids principals).principalSteps := by
    rw [plan, List.flatMap_cons, List.flatMap_nil, List.append_nil, ResolvedGroup.steps, if_pos used,
      ResolvedGroup.policySteps_of_principals present, policyPrincipals_policyGroup]
    exact List.append_nil _
  have fault :
      (emit toHost [policyGroup group ids principals] Template.Collection.empty).fault? = _ :=
    emit_fault? toHost [] (policyGroup_texts group ids principals)
  rwa [planned, refusal?_principalSteps rfl] at fault

include named

theorem emit_roleGroup_fault? :
    (emit toHost [roleGroup group ids role principals] Template.Collection.empty).fault? =
      readingFault? principals.oneOrMany := by
  have stated : ((directiveFor role principals).member "name").truthy = true := by
    simpa [Value.truthy] using named
  have present : ((directiveFor role principals).member "principals").isNull = false := by
    rw [principals_directiveFor, Bool.eq_false_iff]
    exact fun null => given (Value.eq_null_of_isNull null)
  have used : (roleGroup group ids role principals).isUsed = true := by
    simpa [ResolvedGroup.isUsed, Members.isEmpty, roleGroup] using joined
  have planned : plan [roleGroup group ids role principals] =
      [(roleGroup group ids role principals).roleStep (directiveFor role principals)] := by
    rw [plan, List.flatMap_cons, List.flatMap_nil, List.append_nil, ResolvedGroup.steps, if_pos used]
    rfl
  have fault :
      (emit toHost [roleGroup group ids role principals] Template.Collection.empty).fault? = _ :=
    emit_fault? toHost [] (roleGroup_texts group ids role principals)
  have mapping : ∃ es, directiveFor role principals = .map es := ⟨_, rfl⟩
  rw [planned, ResolvedGroup.roleStep_of_given mapping stated present, principals_directiveFor] at fault
  rcases rolePrincipals_cases principals with ⟨trusted, read, none⟩ | ⟨cause, read, some⟩
  · rw [fault, none]
    simp [refusal?, Step.refusal?, read]
  · rw [fault, some]
    simp [refusal?, Step.refusal?, read]

end Pass

/-- A pass over a policy and one over a role with the same principals are stopped by the same
principal, or by none. If the principals are anything but the empty text, the policy then grants to
no one just when there is no role, and else to principals that the role trusts. The empty text is
granted to by a policy, and makes no role. -/
theorem emit_principals_alike (toHost : Bool) (group : Value) (ids : List String) (role : String)
    (principals : Value) (joined : ids ≠ []) (named : role ≠ "") (given : principals ≠ .null) :
    let granting := emit toHost [policyGroup group ids principals] Template.Collection.empty
    let trusting := emit toHost [roleGroup group ids role principals] Template.Collection.empty
    granting.fault? = trusting.fault? ∧
    (∀ fault, granting.fault? = some fault →
      ∃ raw ∈ principals.oneOrMany, fault = .config (.badPrincipal raw)) ∧
    (granting.fault? = none → ∃ permissions roles : List (String × Value),
      granting.reached.resources = ⟨.map (Entries.ofNamed permissions)⟩ ∧
      trusting.reached.resources = ⟨.map (Entries.ofNamed roles)⟩ ∧
      (∀ e ∈ permissions, Template.isOfType e.2 "AWS::Lambda::Permission" = true) ∧
      (∀ e ∈ roles, Template.isOfType e.2 "AWS::IAM::Role" = true) ∧
      (principals ≠ .text "" → (permissions = [] ↔ roles = []) ∧
        ∀ e ∈ permissions, ∃ r ∈ roles, Template.grantee e.2 ∈ Template.trusted r.2) ∧
      (principals = .text "" → permissions ≠ [] ∧ roles = [] ∧
        ∀ e ∈ permissions, Template.grantee e.2 = .text "")) := by
  intro granting trusting
  have policy : granting.fault? = readingFault? principals.oneOrMany :=
    emit_policyGroup_fault? toHost group joined given
  have same : granting.fault? = trusting.fault? :=
    policy.trans (emit_roleGroup_fault? toHost group joined named given).symm
  refine ⟨same, fun fault failed => badPrincipal_of_readingFault? (policy.symm.trans failed), ?_⟩
  intro succeeded
  have readable := policy.symm.trans succeeded
  obtain ⟨trusted, read⟩ : ∃ trusted, ResolvedGroup.rolePrincipals principals = .ok trusted := by
    rcases rolePrincipals_cases principals with ⟨trusted, read, -⟩ | ⟨fault, -, failed⟩
    · exact ⟨trusted, read⟩
    · rw [readable] at failed
      cases failed
  have granted {e : String × Value} (member : e ∈ policyAdditions group ids principals) :=
    granted_of_mem_policyAdditions group ids principals member
  refine ⟨policyAdditions group ids principals, roleAdditions group ids role principals,
    emit_added toHost [] (policyGroup_texts group ids principals) succeeded,
    emit_added toHost [] (roleGroup_texts group ids role principals) (same ▸ succeeded),
    fun e member => (granted member).1, ?_, ?_, ?_⟩
  · rcases roleAdditions_cases group ids role principals joined read with
      ⟨-, added⟩ | ⟨r, -, added, typed, -⟩
    · rw [added]
      exact fun e member => absurd member List.not_mem_nil
    · rw [added]
      exact fun e member => List.mem_singleton.mp member ▸ typed
  · intro other
    exact additions_alike group ids role principals joined other read readable
  · -- The empty text is one principal of the policy and none of the role.
    rintro rfl
    have none : roleAdditions group ids role (.text "") = [] := by
      rw [roleAdditions, items_roleGroup group ids role _ joined rfl]
      rfl
    refine ⟨?_, none, fun e member => ?_⟩
    · rw [ne_eq, policyAdditions_eq_nil_iff group ids _ joined readable]
      exact List.cons_ne_nil _ _
    · obtain ⟨-, raw, listed, form⟩ := granted member
      rw [form, List.mem_singleton.mp listed]
      rfl

/-- An account, a reference to an intrinsic function, and the empty text inside a list. -/
def mixedPrincipals : Value :=
  .list [.int 111111111111, .object [("Fn::ImportValue", .text "role-arn")], .text ""]

theorem emit_principals_alike_mixed :
    ["F", "G"] ≠ [] ∧ "ops" ≠ "" ∧ mixedPrincipals ≠ .null ∧
      (emit true [policyGroup (.text "api") ["F", "G"] mixedPrincipals]
        Template.Collection.empty).fault? = none ∧
      ∃ permissions roles : List (String × Value),
        (emit true [policyGroup (.text "api") ["F", "G"] mixedPrincipals]
          Template.Collection.empty).reached.resources = ⟨.map (Entries.ofNamed permissions)⟩ ∧
        (emit true [roleGroup (.text "api") ["F", "G"] "ops" mixedPrincipals]
          Template.Collection.empty).reached.resources = ⟨.map (Entries.ofNamed roles)⟩ ∧
        (permissions = [] ↔ roles = []) ∧
        ∀ e ∈ permissions, ∃ r ∈ roles, Template.grantee e.2 ∈ Template.trusted r.2 := by
  have joined : ["F", "G"] ≠ [] := List.cons_ne_nil _ _
  have named : "ops" ≠ "" := by decide
  have given : mixedPrincipals ≠ .null := by simp [mixedPrincipals]
  have succeeded : (emit true [policyGroup (.text "api") ["F", "G"] mixedPrincipals]
      Template.Collection.empty).fault? = none := rfl
  obtain ⟨-, -, added⟩ :=
    emit_principals_alike true (.text "api") ["F", "G"] "ops" mixedPrincipals joined named given
  obtain ⟨permissions, roles, granted, trusted, -, -, alike, -⟩ := added succeeded
  have other : mixedPrincipals ≠ .text "" := by simp [mixedPrincipals]
  exact ⟨joined, named, given, succeeded, permissions, roles, granted, trusted, alike other⟩

/-- The policy grants to the empty text, for which the role is left out. -/
theorem emit_grants_empty_text :
    (emit true [policyGroup (.text "api") ["F"] (.text "")]
        Template.Collection.empty).fault? = none ∧
      (emit true [policyGroup (.text "api") ["F"] (.text "")]
        Template.Collection.empty).reached.resources =
          ⟨.map [(.text "FPermitInvokeFrom", Template.permission (.text "F") (.literal "") .null)]⟩ ∧
      (emit true [roleGroup (.text "api") ["F"] "ops" (.text "")]
        Template.Collection.empty).fault? = none ∧
      (emit true [roleGroup (.text "api") ["F"] "ops" (.text "")]
        Template.Collection.empty).reached.resources = ⟨.map []⟩ :=
  ⟨rfl, rfl, rfl, rfl⟩

end AccessGroups

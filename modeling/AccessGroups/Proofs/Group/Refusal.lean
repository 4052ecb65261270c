import AccessGroups.Proofs.Group.Request

/-!
What stops a pass. Over a mapping a step is refused for what it says and for the names that are taken, and for
nothing else: a permission never is, and a role is where its name is taken or a principal cannot be read. So
the fault of a pass is told by its plan and by the names that it starts with, and it has its cause in the
declaration of a group that is used.
-/

set_option autoImplicit false

namespace AccessGroups

/-- Why a step cannot be taken when the given names are taken; none if it can. -/
def Step.refusal? (taken : List String) : Step → Option Fault
  | .role request =>
    if Identifier.roleResourceName request.role.display ∈ taken then
      some (.config (.duplicateRole request.group request.role))
    else
      match request.principals with
      | .ok _ => none
      | .error fault => some (.config fault)
  | .refuse fault => some fault
  | _ => none

/-- Why the first step that cannot be taken cannot, when the items of the steps before it are added. -/
def refusal? (taken : List String) : List Step → Option Fault
  | [] => none
  | step :: rest => (step.refusal? taken).or (refusal? (taken ++ askedNames [step]) rest)

theorem Step.refusal?_eq_none_iff (taken : List String) (step : Step) :
    step.refusal? taken = none ↔ step.Admitted taken := by
  cases step with
  | role request =>
    by_cases used : Identifier.roleResourceName request.role.display ∈ taken
    · simp [refusal?, Admitted, used]
    · cases named : request.principals <;> simp [refusal?, Admitted, used, named]
  | _ => simp [refusal?, Admitted]

theorem Step.refusal?_congr {taken others : List String}
    (same : ∀ name, name ∈ taken ↔ name ∈ others) (step : Step) :
    step.refusal? taken = step.refusal? others := by
  cases step with
  | role request => simp only [refusal?, same]
  | _ => rfl

/-- Which names are taken matters, and not in which order or how often they are listed. -/
theorem refusal?_congr {taken others : List String}
    (same : ∀ name, name ∈ taken ↔ name ∈ others) (steps : List Step) :
    refusal? taken steps = refusal? others steps := by
  induction steps generalizing taken others with
  | nil => rfl
  | cons step rest ih =>
    rw [refusal?, refusal?, step.refusal?_congr same]
    congr 1
    apply ih
    intro name
    rw [List.mem_append, List.mem_append, same]

/-- Where all names that steps ask for are taken, no step changes what is taken for the next one. -/
theorem refusal?_of_taken {taken : List String} {steps : List Step}
    (asked : ∀ name ∈ askedNames steps, name ∈ taken) :
    refusal? taken steps = steps.findSome? (Step.refusal? taken) := by
  induction steps with
  | nil => rfl
  | cons step rest ih =>
    rw [askedNames_cons, List.forall_mem_append] at asked
    have still : refusal? (taken ++ askedNames [step]) rest = refusal? taken rest := by
      apply refusal?_congr
      intro name
      rw [List.mem_append, or_iff_left_of_imp (asked.1 name)]
    rw [refusal?, still, ih asked.2, List.findSome?_cons]
    cases step.refusal? taken <;> rfl

theorem refusal?_append (taken : List String) (before after : List Step) :
    refusal? taken (before ++ after) =
      (refusal? taken before).or (refusal? (taken ++ askedNames before) after) := by
  induction before generalizing taken with
  | nil => simp [refusal?, askedNames]
  | cons step rest ih =>
    rw [List.cons_append, refusal?, refusal?, ih, Option.or_assoc, askedNames_cons step rest,
      List.append_assoc]

theorem refusal?_eq_none_iff (taken : List String) (steps : List Step) :
    refusal? taken steps = none ↔ Admitted taken steps := by
  induction steps generalizing taken with
  | nil => simp [refusal?, Admitted]
  | cons step rest ih =>
    rw [refusal?, Option.or_eq_none_iff, Step.refusal?_eq_none_iff, ih, Admitted]

theorem exists_step_of_refusal? {taken : List String} {steps : List Step} {fault : Fault}
    (refused : refusal? taken steps = some fault) :
    ∃ step ∈ steps, ∃ names, step.refusal? names = some fault := by
  induction steps generalizing taken with
  | nil => cases refused
  | cons step rest ih =>
    rw [refusal?, Option.or_eq_some_iff] at refused
    rcases refused with here | ⟨-, later⟩
    · exact ⟨step, List.mem_cons_self, taken, here⟩
    · obtain ⟨other, among, found⟩ := ih later
      exact ⟨other, List.mem_cons_of_mem _ among, found⟩

namespace Pass

theorem take_fault? (toHost : Bool) {p : Pass} {es : Entries Value}
    (stands : p.resources = ⟨.map es⟩) {step : Step} (textual : step.Textual) :
    (p.take toHost step).fault? = step.refusal? es.names := by
  cases step with
  | unused group => rfl
  | permission group function principal =>
    cases take_effect toHost p es stands _ textual with
    | stopped refused => exact absurd trivial refused
    | skipped admitted fault => exact fault
    | added item admitted fault => exact fault
  | role request =>
    obtain ⟨ids, members⟩ := textual
    simp only [take, addRole, stands, Template.Collection.contains_map,
      Progress.ofExcept_mapError_ok, Step.refusal?]
    by_cases taken : Identifier.roleResourceName request.role.display ∈ es.names
    · simp only [taken, decide_true, ↓reduceIte]
      rfl
    · simp only [taken, decide_false, Bool.false_eq_true, ↓reduceIte]
      cases request.principals with
      | error fault => rfl
      | ok principals =>
        cases principals with
        | nil => rfl
        | cons first others =>
          simp only [members, Template.Collection.addIfAbsent_map, taken, ↓reduceIte]
          rfl
  | refuse fault => rfl

end Pass

/-- A run over a mapping fails with what the first of its steps that cannot be taken is refused for. -/
theorem walk_fault? (toHost : Bool) (steps : List Step) (p : Pass) (es : Entries Value)
    (stands : p.resources = ⟨.map es⟩) (textual : ∀ step ∈ steps, step.Textual) :
    (Progress.walk (Pass.take toHost) p steps).fault? = refusal? es.names steps := by
  induction steps generalizing p es with
  | nil => rfl
  | cons step rest ih =>
    have here := Pass.take_fault? toHost stands (textual step List.mem_cons_self)
    have later : ∀ next ∈ rest, next.Textual :=
      fun next member => textual next (List.mem_cons_of_mem _ member)
    rw [Progress.walk_cons, refusal?, ← here]
    cases Pass.take_effect toHost p es stands step (textual step List.mem_cons_self) with
    | stopped refused fault resources chain =>
      obtain ⟨cause, failed⟩ := Option.ne_none_iff_exists'.mp fault
      rw [Progress.andThen_of_stopped _ fault, failed, Option.some_or]
    | skipped admitted fault taken resources chain =>
      rw [Progress.andThen_of_ok _ fault, fault, Option.none_or, ih _ es resources later]
      -- A step that is skipped asks for no name that is not taken already.
      apply refusal?_congr
      intro name
      rw [List.mem_append, iff_comm, or_iff_left_iff_imp]
      intro asked
      obtain ⟨item, request, rfl⟩ : ∃ item, step.item? = some item ∧ item.name = name := by
        simpa [askedNames] using asked
      exact taken item request
    | added item admitted fault asked free resources chain =>
      rw [Progress.andThen_of_ok _ fault, fault, Option.none_or, ih _ _ resources later]
      congr 1
      simp [askedNames, asked]

theorem emit_fault? (toHost : Bool) {groups : List ResolvedGroup} (es : Entries Value)
    (texts : ∀ g ∈ groups, g.HasTextIds) :
    (emit toHost groups ⟨.map es⟩).fault? = refusal? es.names (plan groups) :=
  walk_fault? toHost (plan groups) (Pass.start ⟨.map es⟩) es rfl
    fun _ member => textual_of_mem_plan texts member

theorem Emission.fault?_eq {toHost : Bool} {groups : List ResolvedGroup} {es : Entries Value}
    {before after : List Step} {step : Step} (texts : ∀ g ∈ groups, g.HasTextIds)
    (emission : Emission (Pass.start ⟨.map es⟩) es (plan groups) (emit toHost groups ⟨.map es⟩)
      before (step :: after)) :
    (emit toHost groups ⟨.map es⟩).fault? = step.refusal? (es.names ++ askedNames before) := by
  have refused := emission.refused step after rfl
  rw [← Step.refusal?_eq_none_iff] at refused
  obtain ⟨fault, here⟩ := Option.ne_none_iff_exists'.mp refused
  rw [emit_fault? toHost es texts, emission.steps_eq, refusal?_append,
    (refusal?_eq_none_iff es.names before).mpr emission.admitted, Option.none_or, refusal?, here,
    Option.some_or]

/-- The principals that a policy and the directives of a role list. -/
def listedPrincipals (policy role : Value) : List Value :=
  (policy.member "principals").oneOrMany ++
    role.oneOrMany.flatMap fun directive => (directive.member "principals").oneOrMany

namespace ResolvedGroup

/-- What stops a pass at a group: a part of its declaration that is missing or cannot be read, or the name
of a role that is taken. -/
inductive Cause (g : ResolvedGroup) : ConfigFault → Prop
  | policy (given : g.policy.isNull = false)
      (missing : (g.policy.member "principals").isNull = true) :
      Cause g (.policyWithoutPrincipals g.name)
  | principal {raw : Value} {fault : ConfigFault} (listed : raw ∈ listedPrincipals g.policy g.role)
      (unreadable : Principal.ofValue raw = .error fault) : Cause g fault
  | directive {directive : Value} (stated : directive ∈ g.role.oneOrMany)
      (other : ∀ es, directive ≠ .map es) : Cause g (.roleNotMapping g.name directive)
  | unnamed {directive : Value} (stated : directive ∈ g.role.oneOrMany)
      (empty : (directive.member "name").truthy = false) : Cause g (.roleWithoutName g.name)
  | bare {directive : Value} (stated : directive ∈ g.role.oneOrMany)
      (missing : (directive.member "principals").isNull = true) :
      Cause g (.roleWithoutPrincipals g.name (directive.member "name"))
  | taken {directive : Value} (stated : directive ∈ g.role.oneOrMany) :
      Cause g (.duplicateRole g.name (directive.member "name"))

theorem exists_unreadable {raws : List Value} {fault : ConfigFault}
    (failed : raws.mapM Principal.ofValue = .error fault) :
    ∃ raw ∈ raws, Principal.ofValue raw = .error fault := by
  induction raws with
  | nil => cases failed
  | cons raw rest ih =>
    rw [List.mapM_cons] at failed
    cases first : Principal.ofValue raw with
    | error cause =>
      simp only [first, bind, Except.bind, Except.error.injEq] at failed
      exact ⟨raw, List.mem_cons_self, failed ▸ first⟩
    | ok principal =>
      cases others : rest.mapM Principal.ofValue with
      | error cause =>
        simp only [first, others, bind, Except.bind, Except.error.injEq] at failed
        obtain ⟨other, among, unreadable⟩ := ih (failed ▸ others)
        exact ⟨other, List.mem_cons_of_mem _ among, unreadable⟩
      | ok list => simp [first, others, bind, Except.bind, pure, Except.pure] at failed

theorem exists_unreadable_of_rolePrincipals {declared : Value} {fault : ConfigFault}
    (failed : rolePrincipals declared = .error fault) :
    ∃ raw ∈ declared.oneOrMany, Principal.ofValue raw = .error fault := by
  unfold rolePrincipals at failed
  split at failed
  · cases failed
  · exact exists_unreadable failed

section Cause

variable {g : ResolvedGroup} {functions : List Value} (members : g.functions = .ok functions)
  {step : Step} {names : List String} {fault : Fault}
  (refused : step.refusal? names = some fault)

include members refused

theorem cause_of_principalSteps {raw : Value} (listed : raw ∈ g.policyPrincipals)
    (member : step ∈ g.principalSteps raw) : ∃ cause, fault = .config cause ∧ g.Cause cause := by
  unfold principalSteps at member
  cases read : Principal.ofValue raw with
  | ok principal =>
    simp only [read, members] at member
    obtain ⟨function, -, rfl⟩ := List.mem_map.mp member
    cases refused
  | error cause =>
    simp only [read] at member
    obtain rfl := List.mem_singleton.mp member
    cases refused
    exact ⟨cause, rfl, .principal (List.mem_append_left _ listed) read⟩

theorem cause_of_policySteps (member : step ∈ g.policySteps) :
    ∃ cause, fault = .config cause ∧ g.Cause cause := by
  cases given : g.policy.isNull with
  | true =>
    rw [policySteps_of_null given] at member
    cases member
  | false =>
    cases present : (g.policy.member "principals").isNull with
    | true =>
      rw [policySteps_of_missing given present] at member
      obtain rfl := List.mem_singleton.mp member
      cases refused
      exact ⟨_, rfl, .policy given present⟩
    | false =>
      rw [policySteps_of_principals present] at member
      obtain ⟨raw, listed, inner⟩ := List.mem_flatMap.mp member
      exact cause_of_principalSteps members refused listed inner

omit members in
/-- A directive is refused for what it says, or for its name, which is taken. -/
theorem cause_of_roleStep {directive : Value} (stated : directive ∈ g.role.oneOrMany)
    (same : g.roleStep directive = step) : ∃ cause, fault = .config cause ∧ g.Cause cause := by
  subst same
  cases directive with
  | map es =>
    simp only [roleStep] at refused
    split at refused
    · rename_i empty
      cases refused
      rw [Bool.not_eq_true'] at empty
      exact ⟨_, rfl, .unnamed stated empty⟩
    · rw [given?_eq] at refused
      by_cases missing : ((Value.map es).member "principals").isNull = true
      · simp only [missing, ↓reduceIte] at refused
        cases refused
        exact ⟨_, rfl, .bare stated missing⟩
      · simp only [missing, Bool.false_eq_true, ↓reduceIte, Step.refusal?] at refused
        split at refused
        · cases refused
          exact ⟨_, rfl, .taken stated⟩
        · split at refused
          · cases refused
          · rename_i cause failed
            cases refused
            obtain ⟨raw, listed, unreadable⟩ := exists_unreadable_of_rolePrincipals failed
            refine ⟨cause, rfl, .principal (List.mem_append_right _ ?_) unreadable⟩
            exact List.mem_flatMap.mpr ⟨_, stated, listed⟩
  | _ =>
    cases refused
    exact ⟨_, rfl, .directive stated (by intro es same; cases same)⟩

theorem cause_of_steps (member : step ∈ g.steps) :
    g.isUsed = true ∧ ∃ cause, fault = .config cause ∧ g.Cause cause := by
  unfold steps at member
  split at member
  · rename_i used
    refine ⟨used, ?_⟩
    rcases List.mem_append.mp member with policy | role
    · exact cause_of_policySteps members refused policy
    · obtain ⟨directive, stated, same⟩ := List.mem_map.mp role
      exact cause_of_roleStep refused stated same
  · obtain rfl := List.mem_singleton.mp member
    cases refused

end Cause

end ResolvedGroup

/-- Whatever stops a pass over a mapping has its cause in the declaration of a group that is used. -/
theorem cause_of_emit {toHost : Bool} {groups : List ResolvedGroup} {es : Entries Value}
    (texts : ∀ g ∈ groups, g.HasTextIds) {fault : Fault}
    (failed : (emit toHost groups ⟨.map es⟩).fault? = some fault) :
    ∃ g ∈ groups, g.isUsed = true ∧ ∃ cause, fault = .config cause ∧ g.Cause cause := by
  rw [emit_fault? toHost es texts] at failed
  obtain ⟨step, planned, names, refused⟩ := exists_step_of_refusal? failed
  obtain ⟨g, among, member⟩ := List.mem_flatMap.mp planned
  exact ⟨g, among, ResolvedGroup.cause_of_steps (texts g among).ids_eq.1 refused member⟩

end AccessGroups

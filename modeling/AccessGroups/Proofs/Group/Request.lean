import AccessGroups.Proofs.Group.Emission
import Mathlib.Data.List.Basic

/-!
What groups request. The items of a group are said from its declaration alone: one permission per
principal of the policy and function, and one role per directive that has principals. The steps of a
plan are traced back to the declarations they come from, and a plan that refuses nothing asks for
exactly the items of its groups.
-/

set_option autoImplicit false

namespace AccessGroups

theorem Value.eq_null_of_isNull {v : Value} (null : v.isNull = true) : v = .null := by
  cases v <;> simp [Value.isNull] at null ⊢

/-- What stands in a template for a principal as it is declared: a mapping unchanged, and the text of
anything else. -/
def Principal.emittedForm (raw : Value) : Value :=
  match raw with
  | .map entries => .map entries
  | v => .text v.display

theorem Principal.emitted_of_ofValue {raw : Value} {principal : Principal}
    (read : Principal.ofValue raw = .ok principal) :
    principal.emitted = Principal.emittedForm raw := by
  cases raw with
  | map entries =>
    simp only [Principal.ofValue] at read
    split at read
    · cases read
      rfl
    · cases read
  | text s => cases read; rfl
  | int n => cases read; rfl
  | real x => cases read; rfl
  | _ => cases read

theorem emitted_of_mapM {raws : List Value} {principals : List Principal}
    (read : raws.mapM Principal.ofValue = .ok principals) :
    principals.map Principal.emitted = raws.map Principal.emittedForm := by
  induction raws generalizing principals with
  | nil =>
    cases read
    rfl
  | cons raw rest ih =>
    rw [List.mapM_cons] at read
    cases first : Principal.ofValue raw with
    | error fault => simp [first, bind, Except.bind] at read
    | ok principal =>
      cases others : rest.mapM Principal.ofValue with
      | error fault => simp [first, others, bind, Except.bind] at read
      | ok list =>
        simp only [first, others, bind, Except.bind, pure, Except.pure, Except.ok.injEq] at read
        rw [← read, List.map_cons, List.map_cons, ih others, Principal.emitted_of_ofValue first]

namespace ResolvedGroup

def HasTextIds (g : ResolvedGroup) : Prop :=
  ∃ ids : List String, g.functions = .ok (ids.map .text)

/-- The logical ids of the functions; none where they cannot be gone through. -/
def ids (g : ResolvedGroup) : List Value :=
  match g.functions with
  | .ok ids => ids
  | .error _ => []

def policyPrincipals (g : ResolvedGroup) : List Value := (g.policy.member "principals").oneOrMany

/-- The duration that a directive gives, or else the default. -/
def sessionDuration (directive : Value) : Value :=
  match directive.member "maxSessionDuration" with
  | .null => .int Template.defaultDuration
  | duration => duration

/-- The role that a directive asks for on the given functions, if it has principals. -/
def roleItem? (functions : List Value) (directive : Value) : Option Item :=
  match rolePrincipals (directive.member "principals") with
  | .ok (first :: others) =>
    some (.role (directive.member "name").display functions (first :: others)
      (directive.member "allowTagSession").truthy (sessionDuration directive))
  | _ => none

/-- One permission per principal and function, the principals outer and the functions inner. -/
def policyItems (g : ResolvedGroup) : List Item :=
  g.policyPrincipals.flatMap fun raw =>
    match Principal.ofValue raw with
    | .ok principal => g.ids.map fun function => .permission function principal
    | .error _ => []

def roleItems (g : ResolvedGroup) : List Item := g.role.oneOrMany.filterMap (roleItem? g.ids)

/-- A group without functions asks for nothing. -/
def items (g : ResolvedGroup) : List Item :=
  if g.ids.isEmpty then [] else g.policyItems ++ g.roleItems

theorem given?_eq (v : Value) (name : String) :
    given? v name = if (v.member name).isNull then none else some (v.member name) := by
  cases v with
  | map es =>
    have member : (Value.map es).member name = (Entries.get? es (.text name)).getD .null := rfl
    rw [member, given?]
    cases Entries.get? es (.text name) with
    | none => rfl
    | some w => cases w <;> rfl
  | _ => rfl

theorem sessionDuration_eq (directive : Value) :
    (given? directive "maxSessionDuration").getD (.int Template.defaultDuration) =
      sessionDuration directive := by
  rw [given?_eq, sessionDuration]
  cases directive.member "maxSessionDuration" <;> rfl

theorem policySteps_of_null {g : ResolvedGroup} (null : g.policy.isNull = true) :
    g.policySteps = [] := by
  simp only [policySteps, null, ↓reduceIte]

theorem policySteps_of_missing {g : ResolvedGroup} (given : g.policy.isNull = false)
    (missing : (g.policy.member "principals").isNull = true) :
    g.policySteps = [.refuse (.config (.policyWithoutPrincipals g.name))] := by
  simp only [policySteps, given?_eq, given, missing, Bool.false_eq_true, ↓reduceIte]

theorem policySteps_of_principals {g : ResolvedGroup}
    (present : (g.policy.member "principals").isNull = false) :
    g.policySteps = g.policyPrincipals.flatMap g.principalSteps := by
  have given : g.policy.isNull = false := by
    rw [Bool.eq_false_iff]
    intro null
    rw [Value.eq_null_of_isNull null] at present
    cases present
  simp only [policySteps, given?_eq, given, present, Bool.false_eq_true, ↓reduceIte]
  rfl

/-- A step for a principal is a permission on one of the functions, or it refuses. -/
theorem mem_principalSteps {g : ResolvedGroup} {raw : Value} {step : Step}
    (member : step ∈ g.principalSteps raw) :
    (∃ principal, Principal.ofValue raw = .ok principal ∧
      ∃ function ∈ g.ids, step = .permission g.name function principal) ∨
    ∃ fault, step = .refuse fault := by
  unfold principalSteps at member
  split at member
  · rename_i principal functions read members
    obtain ⟨function, among, rfl⟩ := List.mem_map.mp member
    refine Or.inl ⟨principal, read, function, ?_, rfl⟩
    simpa only [ids, members] using among
  · exact Or.inr ⟨_, List.mem_singleton.mp member⟩
  · exact Or.inr ⟨_, List.mem_singleton.mp member⟩

theorem mem_policySteps {g : ResolvedGroup} {step : Step} (member : step ∈ g.policySteps) :
    (∃ raw ∈ g.policyPrincipals, ∃ principal, Principal.ofValue raw = .ok principal ∧
      ∃ function ∈ g.ids, step = .permission g.name function principal) ∨
    ∃ fault, step = .refuse fault := by
  unfold policySteps at member
  split at member
  · cases member
  · rw [given?_eq] at member
    split at member
    · exact Or.inr ⟨_, List.mem_singleton.mp member⟩
    · rename_i principals found
      split at found
      · cases found
      · cases found
        obtain ⟨raw, among, inner⟩ := List.mem_flatMap.mp member
        rcases mem_principalSteps inner with ⟨principal, read, asked⟩ | refused
        · exact Or.inl ⟨raw, among, principal, read, asked⟩
        · exact Or.inr refused

/-- A step for a directive asks for the role that the directive describes, or it refuses. -/
theorem roleStep_cases (g : ResolvedGroup) (directive : Value) :
    g.roleStep directive =
      .role
        { group := g.name
          role := directive.member "name"
          functions := g.functions
          principals := rolePrincipals (directive.member "principals")
          tagSession := (directive.member "allowTagSession").truthy
          duration := sessionDuration directive } ∨
    ∃ fault, g.roleStep directive = .refuse fault := by
  cases directive with
  | map es =>
    simp only [roleStep]
    split
    · exact Or.inr ⟨_, rfl⟩
    · rw [sessionDuration_eq, given?_eq]
      by_cases absent : ((Value.map es).member "principals").isNull = true
      · simp only [absent, ↓reduceIte]
        exact Or.inr ⟨_, rfl⟩
      · exact Or.inl (by simp only [absent, Bool.false_eq_true, ↓reduceIte]; rfl)
  | _ => exact Or.inr ⟨_, rfl⟩

theorem directive_of_mem_steps {g : ResolvedGroup} {request : RoleRequest}
    (member : Step.role request ∈ g.steps) :
    ∃ directive ∈ g.role.oneOrMany, request =
      { group := g.name
        role := directive.member "name"
        functions := g.functions
        principals := rolePrincipals (directive.member "principals")
        tagSession := (directive.member "allowTagSession").truthy
        duration := sessionDuration directive } := by
  unfold steps at member
  split at member
  · rcases List.mem_append.mp member with policy | role
    · rcases mem_policySteps policy with ⟨_, _, _, _, _, _, permission⟩ | ⟨fault, refused⟩
      · cases permission
      · cases refused
    · obtain ⟨directive, among, same⟩ := List.mem_map.mp role
      rcases roleStep_cases g directive with asked | ⟨fault, refused⟩
      · rw [asked] at same
        exact ⟨directive, among, (Step.role.inj same).symm⟩
      · rw [refused] at same
        cases same
  · cases List.mem_singleton.mp member

theorem filterMap_item?_principalSteps (g : ResolvedGroup) (raw : Value) :
    (g.principalSteps raw).filterMap Step.item? =
      match Principal.ofValue raw with
      | .ok principal => g.ids.map fun function => .permission function principal
      | .error _ => [] := by
  unfold principalSteps
  split
  · rename_i principal functions read members
    simp only [read, ids, members, List.filterMap_map]
    rw [← List.filterMap_eq_map]
    rfl
  · rename_i principal misuse read members
    simp [read, ids, members, Step.item?]
  · rename_i fault read
    simp [read, Step.item?]

theorem filterMap_item?_policySteps (g : ResolvedGroup) :
    g.policySteps.filterMap Step.item? = g.policyItems := by
  unfold policySteps policyItems policyPrincipals
  split
  · rename_i null
    rw [Value.eq_null_of_isNull null]
    rfl
  · rw [given?_eq]
    by_cases absent : (g.policy.member "principals").isNull = true
    · rw [Value.eq_null_of_isNull absent]
      rfl
    · simp only [absent, Bool.false_eq_true, ↓reduceIte, List.filterMap_flatMap,
        filterMap_item?_principalSteps]

/-- A step for a directive that is not refused asks for the directive's role. -/
theorem item?_roleStep {g : ResolvedGroup} {functions : List Value}
    (members : g.functions = .ok functions) {directive : Value}
    (taken : ∀ fault, g.roleStep directive ≠ .refuse fault) :
    (g.roleStep directive).item? = roleItem? g.ids directive := by
  rcases roleStep_cases g directive with asked | ⟨fault, refused⟩
  · rw [asked]
    simp only [Step.item?, roleItem?, ids, members]
    cases rolePrincipals (directive.member "principals") with
    | error fault => rfl
    | ok principals => cases principals <;> rfl
  · exact absurd refused (taken fault)

theorem isUsed_eq {g : ResolvedGroup} {functions : List Value}
    (members : g.functions = .ok functions) : g.isUsed = !g.ids.isEmpty := by
  simp only [isUsed, members, Members.isEmpty, ids]

theorem filterMap_item?_steps {g : ResolvedGroup} {functions : List Value}
    (members : g.functions = .ok functions)
    (taken : ∀ fault, Step.refuse fault ∉ g.steps) :
    g.steps.filterMap Step.item? = g.items := by
  unfold steps items at *
  rw [isUsed_eq members] at *
  by_cases unused : g.ids.isEmpty = true
  · simp [unused, Step.item?]
  · simp only [unused, Bool.not_false, Bool.false_eq_true, ↓reduceIte, List.filterMap_append,
      filterMap_item?_policySteps] at taken ⊢
    congr 1
    simp only [roleSteps, roleItems, List.filterMap_map]
    apply List.filterMap_congr
    intro directive among
    apply item?_roleStep members
    intro fault refused
    apply taken fault
    exact List.mem_append_right _ (List.mem_map.mpr ⟨directive, among, refused⟩)

theorem HasTextIds.ids_eq {g : ResolvedGroup} (texts : g.HasTextIds) :
    g.functions = .ok g.ids ∧ ∃ names : List String, g.ids = names.map .text := by
  obtain ⟨names, members⟩ := texts
  have listed : g.ids = names.map .text := by simp only [ids, members]
  exact ⟨by rw [listed, members], names, listed⟩

theorem textual_of_mem_steps {g : ResolvedGroup} (texts : g.HasTextIds) {step : Step}
    (member : step ∈ g.steps) : step.Textual := by
  obtain ⟨members, names, listed⟩ := texts.ids_eq
  unfold steps at member
  split at member
  · rcases List.mem_append.mp member with policy | role
    · rcases mem_policySteps policy with ⟨_, _, _, _, function, among, rfl⟩ | ⟨fault, rfl⟩
      · rw [listed] at among
        obtain ⟨id, -, same⟩ := List.mem_map.mp among
        exact ⟨id, same.symm⟩
      · trivial
    · obtain ⟨directive, -, rfl⟩ := List.mem_map.mp role
      rcases roleStep_cases g directive with asked | ⟨fault, refused⟩
      · rw [asked]
        exact ⟨names, by rw [members, listed]⟩
      · rw [refused]
        trivial
  · rw [List.mem_singleton.mp member]
    trivial

/-- Whatever a step of a group asks for is an item of the group, also where another step of the group
is refused. -/
theorem mem_items_of_mem_steps {g : ResolvedGroup} {functions : List Value}
    (members : g.functions = .ok functions) {step : Step} {item : Item} (member : step ∈ g.steps)
    (asked : step.item? = some item) : item ∈ g.items := by
  unfold steps at member
  unfold items
  rw [isUsed_eq members] at member
  by_cases unused : g.ids.isEmpty = true
  · simp only [unused, Bool.not_true, Bool.false_eq_true, ↓reduceIte, List.mem_singleton] at member
    rw [member] at asked
    cases asked
  · simp only [unused, Bool.not_false, Bool.false_eq_true, ↓reduceIte] at member ⊢
    rcases List.mem_append.mp member with policy | role
    · apply List.mem_append_left
      rw [← filterMap_item?_policySteps]
      exact List.mem_filterMap.mpr ⟨step, policy, asked⟩
    · apply List.mem_append_right
      obtain ⟨directive, among, rfl⟩ := List.mem_map.mp role
      refine List.mem_filterMap.mpr ⟨directive, among, ?_⟩
      rw [← item?_roleStep members, asked]
      intro fault refused
      rw [refused] at asked
      cases asked

/-- Where an item of a group comes from: a principal of the policy and a function, or a directive. -/
theorem mem_items_cases {g : ResolvedGroup} {item : Item} (member : item ∈ g.items) :
    (∃ raw ∈ g.policyPrincipals, ∃ principal, Principal.ofValue raw = .ok principal ∧
      ∃ function ∈ g.ids, item = .permission function principal) ∨
    ∃ directive ∈ g.role.oneOrMany, roleItem? g.ids directive = some item := by
  unfold items at member
  split at member
  · cases member
  · rcases List.mem_append.mp member with policy | role
    · obtain ⟨raw, among, inner⟩ := List.mem_flatMap.mp policy
      split at inner
      · rename_i principal read
        obtain ⟨function, listed, rfl⟩ := List.mem_map.mp inner
        exact Or.inl ⟨raw, among, principal, read, function, listed, rfl⟩
      · cases inner
    · exact Or.inr (List.mem_filterMap.mp role)

theorem permission_mem_items {g : ResolvedGroup} {function : Value} {principal : Principal}
    (member : Item.permission function principal ∈ g.items) :
    function ∈ g.ids ∧ ∃ raw ∈ g.policyPrincipals, Principal.ofValue raw = .ok principal ∧
      principal.emitted = Principal.emittedForm raw := by
  rcases mem_items_cases member with
    ⟨raw, among, principal, read, function, listed, same⟩ | ⟨directive, -, asked⟩
  · cases same
    exact ⟨listed, raw, among, read, Principal.emitted_of_ofValue read⟩
  · unfold roleItem? at asked
    split at asked <;> cases asked

/-- A role is asked for by a directive, which says everything of it but the functions. -/
theorem role_mem_items {g : ResolvedGroup} {name : String} {functions : List Value}
    {principals : List Principal} {tagSession : Bool} {duration : Value}
    (member : Item.role name functions principals tagSession duration ∈ g.items) :
    functions = g.ids ∧ ∃ directive ∈ g.role.oneOrMany,
      name = (directive.member "name").display ∧
      rolePrincipals (directive.member "principals") = .ok principals ∧
      tagSession = (directive.member "allowTagSession").truthy ∧
      duration = sessionDuration directive := by
  rcases mem_items_cases member with ⟨raw, -, principal, -, function, -, same⟩ |
    ⟨directive, stated, asked⟩
  · cases same
  · unfold roleItem? at asked
    split at asked
    · rename_i first others read
      cases asked
      exact ⟨rfl, directive, stated, rfl, read, rfl, rfl⟩
    · cases asked

theorem mem_items_of_principal {g : ResolvedGroup} {function raw : Value} {principal : Principal}
    (joined : function ∈ g.ids) (listed : raw ∈ g.policyPrincipals)
    (read : Principal.ofValue raw = .ok principal) : Item.permission function principal ∈ g.items := by
  have some : g.ids.isEmpty = false := List.isEmpty_eq_false_iff.mpr (List.ne_nil_of_mem joined)
  rw [items, some, if_neg Bool.false_ne_true]
  refine List.mem_append_left _ (List.mem_flatMap.mpr ⟨raw, listed, ?_⟩)
  rw [read]
  exact List.mem_map_of_mem joined

theorem mem_items_of_directive {g : ResolvedGroup} {functions : List Value}
    (members : g.functions = .ok functions) (used : g.isUsed = true) {directive : Value} {item : Item}
    (stated : directive ∈ g.role.oneOrMany) (asked : roleItem? g.ids directive = some item) :
    item ∈ g.items := by
  rw [isUsed_eq members, Bool.not_eq_true'] at used
  rw [items, used, if_neg Bool.false_ne_true]
  exact List.mem_append_right _ (List.mem_filterMap.mpr ⟨directive, stated, asked⟩)

theorem isUsed_of_mem_items {g : ResolvedGroup} {functions : List Value}
    (members : g.functions = .ok functions) {item : Item} (member : item ∈ g.items) :
    g.isUsed = true := by
  rw [isUsed_eq members, Bool.not_eq_true']
  by_contra none
  rw [items, (Bool.not_eq_false _).mp none, if_pos rfl] at member
  cases member

end ResolvedGroup

def items (groups : List ResolvedGroup) : List Item := groups.flatMap ResolvedGroup.items

theorem textual_of_mem_plan {groups : List ResolvedGroup} (texts : ∀ g ∈ groups, g.HasTextIds)
    {step : Step} (member : step ∈ plan groups) : step.Textual := by
  obtain ⟨g, among, inner⟩ := List.mem_flatMap.mp member
  exact ResolvedGroup.textual_of_mem_steps (texts g among) inner

theorem mem_items_of_mem_plan {groups : List ResolvedGroup} (texts : ∀ g ∈ groups, g.HasTextIds)
    {step : Step} {item : Item} (member : step ∈ plan groups) (asked : step.item? = some item) :
    ∃ g ∈ groups, item ∈ g.items := by
  obtain ⟨g, among, inner⟩ := List.mem_flatMap.mp member
  exact ⟨g, among, ResolvedGroup.mem_items_of_mem_steps (texts g among).ids_eq.1 inner asked⟩

theorem Admitted.of_mem {taken : List String} {steps : List Step} (admitted : Admitted taken steps)
    {step : Step} (member : step ∈ steps) : step.Admitted [] := by
  obtain ⟨before, after, rfl⟩ := List.append_of_mem member
  rw [admitted_append] at admitted
  exact admitted.2.1.mono (by simp)

/-- An admitted plan asks for the items of its groups and for nothing else. -/
theorem filterMap_item?_plan {groups : List ResolvedGroup} (texts : ∀ g ∈ groups, g.HasTextIds)
    {taken : List String} (admitted : Admitted taken (plan groups)) :
    (plan groups).filterMap Step.item? = items groups := by
  unfold plan items
  rw [List.filterMap_flatMap]
  apply List.flatMap_congr
  intro g among
  apply ResolvedGroup.filterMap_item?_steps (texts g among).ids_eq.1
  intro fault refused
  exact admitted.of_mem (List.mem_flatMap.mpr ⟨g, among, refused⟩)

theorem textual_of_mem_items {groups : List ResolvedGroup} (texts : ∀ g ∈ groups, g.HasTextIds)
    {item : Item} (member : item ∈ items groups) : item.Textual := by
  obtain ⟨g, among, inside⟩ := List.mem_flatMap.mp member
  cases item with
  | permission function principal =>
    obtain ⟨-, ids, listed⟩ := (texts g among).ids_eq
    have joined := (ResolvedGroup.permission_mem_items inside).1
    rw [listed] at joined
    obtain ⟨id, -, same⟩ := List.mem_map.mp joined
    exact ⟨id, same.symm⟩
  | role => trivial

theorem mem_items_of_mem_before {groups : List ResolvedGroup} (texts : ∀ g ∈ groups, g.HasTextIds)
    {before rest : List Step} (split : plan groups = before ++ rest) {item : Item}
    (member : item ∈ before.filterMap Step.item?) : ∃ g ∈ groups, item ∈ g.items := by
  obtain ⟨step, taken, asked⟩ := List.mem_filterMap.mp member
  have planned : step ∈ plan groups := by
    rw [split]
    exact List.mem_append_left rest taken
  exact mem_items_of_mem_plan texts planned asked

theorem textual_of_mem_before {groups : List ResolvedGroup} (texts : ∀ g ∈ groups, g.HasTextIds)
    {before rest : List Step} (split : plan groups = before ++ rest) {item : Item}
    (member : item ∈ before.filterMap Step.item?) : item.Textual := by
  obtain ⟨g, among, inside⟩ := mem_items_of_mem_before texts split member
  exact textual_of_mem_items texts (List.mem_flatMap.mpr ⟨g, among, inside⟩)

theorem emit_emission (toHost : Bool) (groups : List ResolvedGroup) (es : Entries Value)
    (texts : ∀ g ∈ groups, g.HasTextIds) :
    ∃ before rest, Emission (Pass.start ⟨.map es⟩) es (plan groups)
      (emit toHost groups ⟨.map es⟩) before rest :=
  walk_emission toHost (plan groups) (Pass.start ⟨.map es⟩) es rfl
    fun _ member => textual_of_mem_plan texts member

/-- An emission into a mapping succeeds when every step of the plan is admitted. -/
theorem emit_succeeds_iff (toHost : Bool) (groups : List ResolvedGroup) (es : Entries Value)
    (texts : ∀ g ∈ groups, g.HasTextIds) :
    (emit toHost groups ⟨.map es⟩).fault? = none ↔ Admitted es.names (plan groups) := by
  obtain ⟨before, rest, emission⟩ := emit_emission toHost groups es texts
  exact emission.complete_iff

theorem emit_added (toHost : Bool) {groups : List ResolvedGroup} (es : Entries Value)
    (texts : ∀ g ∈ groups, g.HasTextIds)
    (succeeded : (emit toHost groups ⟨.map es⟩).fault? = none) :
    (emit toHost groups ⟨.map es⟩).reached.resources =
      ⟨.map (es ++ Entries.ofNamed (linked [] (fresh es.names (items groups))))⟩ := by
  obtain ⟨before, rest, emission⟩ := emit_emission toHost groups es texts
  have whole : plan groups = before := by
    rw [emission.steps_eq, emission.complete.mp succeeded, List.append_nil]
  have admitted := emission.complete_iff.mp succeeded
  rw [emission.resources, ← whole, filterMap_item?_plan texts admitted]
  rfl

/-- Two groups that share a principal and a function, which one of them lists twice. -/
def sharingGroups : List ResolvedGroup :=
  [⟨.text "api", .ok [.text "F", .text "G", .text "F"],
      .object [("principals", .list [.int 111111111111, .text "222222222222"])], .null⟩,
    ⟨.text "admin", .ok [.text "F"],
      .object [("principals", .list [.text "222222222222", .text "333333333333"])],
      .object [("name", .text "ops"), ("principals", .text "111111111111")]⟩]

theorem sharingGroups_texts : ∀ g ∈ sharingGroups, g.HasTextIds := by
  intro g member
  simp only [sharingGroups, List.mem_cons, List.not_mem_nil, or_false] at member
  rcases member with rfl | rfl
  · exact ⟨["F", "G", "F"], rfl⟩
  · exact ⟨["F"], rfl⟩

end AccessGroups

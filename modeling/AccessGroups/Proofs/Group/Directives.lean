import AccessGroups.Proofs.Group.Refusal
import AccessGroups.Proofs.Group.Truncation

/-!
Roles, directive by directive. Where nothing is wrong with the declarations of the groups, a pass can only be
stopped by the name of a role: it is when the name is in the collection, is that of a permission which comes
before the directive, or is that of an earlier role. A directive without principals takes no name.
-/

set_option autoImplicit false

namespace AccessGroups

/-- The directive lists some principal; the empty text stands for none. -/
def listsPrincipals (directive : Value) : Bool :=
  match directive.member "principals" with
  | .text "" => false
  | principals => !principals.oneOrMany.isEmpty

/-- The name of the resource that a directive asks for. -/
def statedName (directive : Value) : String :=
  Identifier.roleResourceName (directive.member "name").display

/-- Nothing is wrong with the directive. -/
structure SoundDirective (directive : Value) : Prop where
  mapping : ∃ es, directive = .map es
  named : (directive.member "name").truthy = true
  given : (directive.member "principals").isNull = false
  readable : ∀ raw ∈ (directive.member "principals").oneOrMany,
    ∃ principal, Principal.ofValue raw = .ok principal

namespace ResolvedGroup

/-- Nothing is wrong with the policy, if the group has one, or with any of its directives. -/
structure Sound (g : ResolvedGroup) : Prop where
  policy : g.policy.isNull = true ∨ (g.policy.member "principals").isNull = false ∧
    ∀ raw ∈ g.policyPrincipals, ∃ principal, Principal.ofValue raw = .ok principal
  directives : ∀ directive ∈ g.role.oneOrMany, SoundDirective directive

/-- The group with its policy and with the given directives only. -/
def withDirectives (g : ResolvedGroup) (directives : List Value) : ResolvedGroup :=
  { g with role := .list directives }

theorem mapM_of_readable {raws : List Value}
    (readable : ∀ raw ∈ raws, ∃ principal, Principal.ofValue raw = .ok principal) :
    ∃ principals, raws.mapM Principal.ofValue = .ok principals := by
  cases all : raws.mapM Principal.ofValue with
  | ok principals => exact ⟨principals, rfl⟩
  | error fault =>
    obtain ⟨raw, listed, unreadable⟩ := exists_unreadable all
    obtain ⟨principal, read⟩ := readable raw listed
    rw [read] at unreadable
    cases unreadable

theorem readable_of_mapM {raws : List Value} {principals : List Principal}
    (read : raws.mapM Principal.ofValue = .ok principals) :
    ∀ raw ∈ raws, ∃ principal, Principal.ofValue raw = .ok principal := by
  induction raws generalizing principals with
  | nil => exact fun raw listed => absurd listed List.not_mem_nil
  | cons first rest ih =>
    rw [List.mapM_cons] at read
    cases here : Principal.ofValue first with
    | error fault => simp [here, bind, Except.bind] at read
    | ok principal =>
      cases others : rest.mapM Principal.ofValue with
      | error fault => simp [here, others, bind, Except.bind] at read
      | ok list =>
        intro raw listed
        rcases List.mem_cons.mp listed with rfl | later
        · exact ⟨principal, here⟩
        · exact ih others raw later

theorem isEmpty_of_mapM {raws : List Value} {principals : List Principal}
    (read : raws.mapM Principal.ofValue = .ok principals) : principals.isEmpty = raws.isEmpty := by
  have same := congrArg List.isEmpty (emitted_of_mapM read)
  rwa [List.isEmpty_map, List.isEmpty_map] at same

theorem rolePrincipals_of_ne {principals : Value} (given : principals ≠ .text "") :
    rolePrincipals principals = principals.oneOrMany.mapM Principal.ofValue := by
  unfold rolePrincipals
  split
  · exact absurd rfl given
  · rfl

theorem listsPrincipals_of_ne {directive : Value} (given : directive.member "principals" ≠ .text "") :
    listsPrincipals directive = !(directive.member "principals").oneOrMany.isEmpty := by
  unfold listsPrincipals
  split
  · rename_i empty
    exact absurd empty given
  · rfl

theorem ne_of_lists {directive : Value} (lists : listsPrincipals directive = true) :
    directive.member "principals" ≠ .text "" := by
  intro empty
  rw [listsPrincipals, empty] at lists
  cases lists

theorem rolePrincipals_of_not_lists {directive : Value} (none : listsPrincipals directive = false) :
    rolePrincipals (directive.member "principals") = .ok [] := by
  by_cases empty : directive.member "principals" = .text ""
  · rw [empty]
    rfl
  · rw [listsPrincipals_of_ne empty, Bool.not_eq_false', List.isEmpty_iff] at none
    rw [rolePrincipals_of_ne empty, none]
    rfl

theorem rolePrincipals_of_lists {directive : Value} (sound : SoundDirective directive)
    (lists : listsPrincipals directive = true) :
    ∃ first others, rolePrincipals (directive.member "principals") = .ok (first :: others) := by
  obtain ⟨principals, read⟩ := mapM_of_readable sound.readable
  rw [rolePrincipals_of_ne (ne_of_lists lists), read]
  cases principals with
  | cons first others => exact ⟨first, others, rfl⟩
  | nil =>
    rw [listsPrincipals_of_ne (ne_of_lists lists), ← isEmpty_of_mapM read] at lists
    cases lists

/-- A sound directive asks for a role if it lists principals, and else for nothing. -/
theorem roleItem?_of_sound {directive : Value} (sound : SoundDirective directive)
    (functions : List Value) :
    listsPrincipals directive = false ∧ roleItem? functions directive = none ∨
    listsPrincipals directive = true ∧ ∃ principals,
      (directive.member "principals").oneOrMany.mapM Principal.ofValue = .ok principals ∧
      roleItem? functions directive =
        some (.role (directive.member "name").display functions principals
          (directive.member "allowTagSession").truthy (sessionDuration directive)) := by
  cases lists : listsPrincipals directive with
  | false =>
    refine .inl ⟨rfl, ?_⟩
    rw [roleItem?, rolePrincipals_of_not_lists lists]
  | true =>
    obtain ⟨first, others, read⟩ := rolePrincipals_of_lists sound lists
    refine .inr ⟨rfl, first :: others, ?_, ?_⟩
    · rw [← rolePrincipals_of_ne (ne_of_lists lists), read]
    · rw [roleItem?, read]

/-- A mapping with a name and with principals asks for a role, readable or not. -/
theorem roleStep_of_given {directive : Value} (mapping : ∃ es, directive = .map es)
    (named : (directive.member "name").truthy = true)
    (given : (directive.member "principals").isNull = false) (g : ResolvedGroup) :
    g.roleStep directive =
      .role
        { group := g.name
          role := directive.member "name"
          functions := g.functions
          principals := rolePrincipals (directive.member "principals")
          tagSession := (directive.member "allowTagSession").truthy
          duration := sessionDuration directive } := by
  obtain ⟨es, rfl⟩ := mapping
  have present : ((Entries.get? es (.text "name")).getD .null).truthy = true := named
  simp only [roleStep, present, given?_eq _ "principals", given, sessionDuration_eq, Bool.not_true,
    Bool.false_eq_true, ↓reduceIte]
  rfl

theorem roleStep_of_sound {directive : Value} (sound : SoundDirective directive) (g : ResolvedGroup) :
    g.roleStep directive =
      .role
        { group := g.name
          role := directive.member "name"
          functions := g.functions
          principals := rolePrincipals (directive.member "principals")
          tagSession := (directive.member "allowTagSession").truthy
          duration := sessionDuration directive } :=
  roleStep_of_given sound.mapping sound.named sound.given g

/-- A sound directive is refused for its name alone. -/
theorem refusal?_roleStep {directive : Value} (sound : SoundDirective directive) (g : ResolvedGroup)
    (taken : List String) :
    (g.roleStep directive).refusal? taken =
      if statedName directive ∈ taken then
        some (.config (.duplicateRole g.name (directive.member "name")))
      else none := by
  have read : ∃ principals, rolePrincipals (directive.member "principals") = .ok principals := by
    cases lists : listsPrincipals directive with
    | false => exact ⟨[], rolePrincipals_of_not_lists lists⟩
    | true =>
      rw [rolePrincipals_of_ne (ne_of_lists lists)]
      exact mapM_of_readable sound.readable
  obtain ⟨principals, read⟩ := read
  rw [roleStep_of_sound sound, Step.refusal?, read]
  rfl

/-- A pass is stopped inside a sound group at a directive only. -/
theorem Sound.directive_of_cutBefore {g cut : ResolvedGroup} {offence : Step} (sound : g.Sound)
    (ends : g.CutBefore offence cut) :
    ∃ before directive after, g.role.oneOrMany = before ++ directive :: after ∧
      offence = g.roleStep directive ∧ cut = g.withDirectives before := by
  cases ends with
  | policy given missing =>
    rcases sound.policy with null | ⟨present, -⟩
    · rw [null] at given
      cases given
    · rw [missing] at present
      cases present
  | @principal before after raw fault listed unreadable =>
    have stated : raw ∈ g.policyPrincipals := by simp [listed]
    rcases sound.policy with null | ⟨-, readable⟩
    · rw [policyPrincipals, Value.eq_null_of_isNull null] at stated
      cases stated
    · obtain ⟨principal, read⟩ := readable raw stated
      rw [unreadable] at read
      cases read
  | directive listed => exact ⟨_, _, _, listed, rfl, rfl⟩

end ResolvedGroup

/-- The directives of the groups that are used, each with its group, in the order of a pass. -/
def directives (groups : List ResolvedGroup) : List (ResolvedGroup × Value) :=
  (groups.filter ResolvedGroup.isUsed).flatMap fun g =>
    g.role.oneOrMany.map fun directive => (g, directive)

theorem mem_directives {groups : List ResolvedGroup} {g : ResolvedGroup} {directive : Value} :
    (g, directive) ∈ directives groups ↔
      g ∈ groups ∧ g.isUsed = true ∧ directive ∈ g.role.oneOrMany := by
  simp only [directives, List.mem_flatMap, List.mem_filter, List.mem_map, Prod.mk.injEq]
  constructor
  · rintro ⟨other, ⟨among, used⟩, same, stated, rfl, rfl⟩
    exact ⟨among, used, stated⟩
  · rintro ⟨among, used, stated⟩
    exact ⟨g, ⟨among, used⟩, directive, stated, rfl, rfl⟩

/-- The name is taken when a pass over the groups comes to its end. -/
inductive Occupied (es : Entries Value) (groups : List ResolvedGroup) (name : String) : Prop
  | present (there : name ∈ es.names)
  | permission {g : ResolvedGroup} {function raw : Value} {principal : Principal} (among : g ∈ groups)
    (joined : function ∈ g.ids) (listed : raw ∈ g.policyPrincipals)
    (read : Principal.ofValue raw = .ok principal)
    (same : Identifier.permissionName function.display principal = name)
  | role {g : ResolvedGroup} {directive : Value} (stated : (g, directive) ∈ directives groups)
    (lists : listsPrincipals directive = true) (same : statedName directive = name)

/-- A pass comes to the directive of the group `g`, which is used, after it has come through the groups
`earlier` and the directives `before`. -/
structure Stands (groups earlier : List ResolvedGroup) (g : ResolvedGroup) (before : List Value)
    (directive : Value) : Prop where
  group : ∃ later, groups = earlier ++ g :: later
  used : g.isUsed = true
  directive : ∃ after, g.role.oneOrMany = before ++ directive :: after

/-- No directive has a name that is taken when a pass comes to it. -/
def Unoccupied (es : Entries Value) (groups : List ResolvedGroup) : Prop :=
  ∀ earlier g before directive, Stands groups earlier g before directive →
    ¬ Occupied es (earlier ++ [g.withDirectives before]) (statedName directive)

theorem sound_of_mem_directives {groups : List ResolvedGroup}
    (sound : ∀ g ∈ groups, g.isUsed = true → g.Sound) {g : ResolvedGroup} {directive : Value}
    (member : (g, directive) ∈ directives groups) : SoundDirective directive := by
  obtain ⟨among, used, stated⟩ := mem_directives.mp member
  exact (sound g among used).directives directive stated

section Pass

variable {toHost : Bool} {groups : List ResolvedGroup} {es : Entries Value}
  (texts : ∀ g ∈ groups, g.HasTextIds) (sound : ∀ g ∈ groups, g.isUsed = true → g.Sound)

include texts sound

/-- The names that a pass has taken are those of the collection and of the items of its groups. -/
theorem occupied_iff {name : String} :
    name ∈ es.names ++ (items groups).map Item.name ↔ Occupied es groups name := by
  rw [List.mem_append, List.mem_map]
  constructor
  · rintro (there | ⟨item, member, rfl⟩)
    · exact .present there
    · obtain ⟨g, among, inside⟩ := List.mem_flatMap.mp member
      have used := ResolvedGroup.isUsed_of_mem_items (texts g among).ids_eq.1 inside
      rcases ResolvedGroup.mem_items_cases inside with
        ⟨raw, listed, principal, read, function, joined, rfl⟩ | ⟨directive, stated, asked⟩
      · exact .permission among joined listed read rfl
      · have listed := mem_directives.mpr ⟨among, used, stated⟩
        rcases ResolvedGroup.roleItem?_of_sound (sound_of_mem_directives sound listed) g.ids with
          ⟨-, nothing⟩ | ⟨lists, principals, -, role⟩
        · rw [nothing] at asked
          cases asked
        · rw [role] at asked
          cases asked
          exact .role listed lists rfl
  · rintro (there | @⟨g, function, raw, principal, among, joined, listed, read, rfl⟩ |
      @⟨g, directive, stated, lists, rfl⟩)
    · exact .inl there
    · have member := ResolvedGroup.mem_items_of_principal joined listed read
      exact .inr ⟨_, List.mem_flatMap.mpr ⟨g, among, member⟩, rfl⟩
    · obtain ⟨among, used, inside⟩ := mem_directives.mp stated
      rcases ResolvedGroup.roleItem?_of_sound (sound_of_mem_directives sound stated) g.ids with
        ⟨none, -⟩ | ⟨-, principals, -, role⟩
      · rw [lists] at none
        cases none
      · have member := ResolvedGroup.mem_items_of_directive (texts g among).ids_eq.1 used inside role
        exact .inr ⟨_, List.mem_flatMap.mpr ⟨g, among, member⟩, rfl⟩

theorem occupied_of_admitted (admitted : Admitted es.names (plan groups)) {name : String} :
    name ∈ es.names ++ askedNames (plan groups) ↔ Occupied es groups name := by
  rw [askedNames, filterMap_item?_plan texts admitted, occupied_iff texts sound]

end Pass

namespace Stands

variable {groups earlier : List ResolvedGroup} {g : ResolvedGroup} {before : List Value}
  {directive : Value} (stands : Stands groups earlier g before directive)

include stands

theorem mem : g ∈ groups := by
  obtain ⟨later, rfl⟩ := stands.group
  simp

theorem mem_earlier {h : ResolvedGroup} (among : h ∈ earlier) : h ∈ groups := by
  obtain ⟨later, rfl⟩ := stands.group
  exact List.mem_append_left _ among

theorem mem_directives : (g, directive) ∈ directives groups := by
  obtain ⟨after, listed⟩ := stands.directive
  exact AccessGroups.mem_directives.mpr ⟨stands.mem, stands.used, by simp [listed]⟩

/-- What is true of the groups and of every group with fewer directives is true of what comes before the
directive. -/
theorem forall_before {P : ResolvedGroup → Prop} (each : ∀ h ∈ groups, P h)
    (fewer : P g → P (g.withDirectives before)) : ∀ h ∈ earlier ++ [g.withDirectives before], P h := by
  intro h member
  rcases List.mem_append.mp member with among | last
  · exact each h (stands.mem_earlier among)
  · rw [List.mem_singleton.mp last]
    exact fewer (each g stands.mem)

theorem texts (texts : ∀ h ∈ groups, h.HasTextIds) :
    ∀ h ∈ earlier ++ [g.withDirectives before], h.HasTextIds :=
  stands.forall_before texts id

theorem sound (sound : ∀ h ∈ groups, h.isUsed = true → h.Sound) :
    ∀ h ∈ earlier ++ [g.withDirectives before], h.isUsed = true → h.Sound := by
  refine stands.forall_before sound fun whole used => ⟨(whole used).policy, ?_⟩
  intro other among
  obtain ⟨after, listed⟩ := stands.directive
  exact (whole used).directives other (by rw [listed]; exact List.mem_append_left _ among)

/-- A pass comes to the directive when it has taken the steps of what comes before it. -/
theorem plan_eq : ∃ rest, plan groups =
    plan (earlier ++ [g.withDirectives before]) ++ g.roleStep directive :: rest := by
  obtain ⟨later, rfl⟩ := stands.group
  obtain ⟨after, listed⟩ := stands.directive
  have used := stands.used
  have fewer : (g.withDirectives before).isUsed = true := used
  refine ⟨after.map g.roleStep ++ plan later, ?_⟩
  rw [plan_append_singleton, ResolvedGroup.steps, if_pos fewer]
  have whole : g.steps = g.policySteps ++ (before.map g.roleStep ++ g.roleStep directive ::
      after.map g.roleStep) := by
    rw [ResolvedGroup.steps, if_pos used, ResolvedGroup.roleSteps, listed, List.map_append,
      List.map_cons]
  have cut : (g.withDirectives before).policySteps ++ (g.withDirectives before).roleSteps =
      g.policySteps ++ before.map g.roleStep := rfl
  simp only [plan, List.flatMap_append, List.flatMap_cons, whole, cut, List.append_assoc,
    List.cons_append]

end Stands

section Pass

variable {toHost : Bool} {groups : List ResolvedGroup} {es : Entries Value}
  (texts : ∀ g ∈ groups, g.HasTextIds) (sound : ∀ g ∈ groups, g.isUsed = true → g.Sound)

include texts sound

/-- A plan whose steps can all be taken has no directive with a name that is taken. -/
theorem unoccupied_of_admitted (admitted : Admitted es.names (plan groups)) : Unoccupied es groups := by
  intro earlier g before directive stands occupied
  obtain ⟨rest, planned⟩ := stands.plan_eq
  rw [planned, admitted_append] at admitted
  rw [← occupied_of_admitted (stands.texts texts) (stands.sound sound) admitted.1] at occupied
  have here := (Step.refusal?_eq_none_iff _ _).mpr admitted.2.1
  rw [ResolvedGroup.refusal?_roleStep (sound_of_mem_directives sound stands.mem_directives),
    if_pos occupied] at here
  cases here

/-- A pass that fails is stopped at the first directive with a name that is taken. -/
theorem stopped_of_fault {fault : Fault} (failed : (emit toHost groups ⟨.map es⟩).fault? = some fault) :
    ∃ earlier g before directive, Stands groups earlier g before directive ∧
      Unoccupied es (earlier ++ [g.withDirectives before]) ∧
      Occupied es (earlier ++ [g.withDirectives before]) (statedName directive) ∧
      fault = .config (.duplicateRole g.name (directive.member "name")) := by
  obtain ⟨done, rest, emission⟩ := emit_emission toHost groups es texts
  obtain ⟨offence, after, rfl⟩ : ∃ offence after, rest = offence :: after := by
    apply List.exists_cons_of_ne_nil
    rw [ne_eq, ← emission.complete, failed]
    simp
  have refused := emission.fault?_eq texts
  rw [failed] at refused
  obtain ⟨earlier, g, later, front, back, split, inside, rfl⟩ :=
    exists_part_of_flatMap emission.steps_eq
  have among : g ∈ groups := by simp [split]
  have members := (texts g among).ids_eq.1
  obtain ⟨used, -⟩ := ResolvedGroup.cause_of_steps members refused.symm (by simp [inside])
  have other : ∀ group function principal, offence ≠ .permission group function principal := by
    rintro group function principal rfl
    cases refused
  obtain ⟨cut, ends, steps⟩ := ResolvedGroup.cutBefore_of_steps members used other inside
  obtain ⟨before, directive, after, listed, rfl, rfl⟩ := (sound g among used).directive_of_cutBefore ends
  have stands : Stands groups earlier g before directive := ⟨⟨later, split⟩, used, after, listed⟩
  -- The steps before the offence are all steps of the groups that end just before the directive.
  have reached : earlier.flatMap ResolvedGroup.steps ++ front =
      plan (earlier ++ [g.withDirectives before]) := by
    rw [plan_append_singleton, ← steps]
    rfl
  have admitted := emission.admitted
  rw [reached] at admitted refused
  rw [ResolvedGroup.refusal?_roleStep (sound_of_mem_directives sound stands.mem_directives)] at refused
  split at refused
  · rename_i taken
    cases refused
    rw [occupied_of_admitted (stands.texts texts) (stands.sound sound) admitted] at taken
    exact ⟨earlier, g, before, directive, stands,
      unoccupied_of_admitted (stands.texts texts) (stands.sound sound) admitted, taken, rfl⟩
  · cases refused

end Pass

end AccessGroups

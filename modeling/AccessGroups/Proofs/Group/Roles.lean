import AccessGroups.Proofs.Group.Directives
import Mathlib.Data.List.Forall2

/-!
Roles of a pass. Where nothing is wrong with the declarations of the groups, a pass that is not stopped adds
one role for each directive with principals, in order, and each says what its directive describes.
-/

set_option autoImplicit false

namespace AccessGroups

namespace Item

def isRole : Item → Bool
  | .permission .. => false
  | .role .. => true

theorem isOfType_resource (item : Item) (previous : Option String) :
    Template.isOfType (item.resource previous) "AWS::IAM::Role" = item.isRole := by
  cases item <;> simp [resource, isRole]

theorem resource_of_isRole {item : Item} (role : item.isRole = true) (previous : Option String) :
    item.resource previous = item.resource none := by
  cases item with
  | permission => cases role
  | role => rfl

end Item

/-- Of the linked resources the roles are those of the items that are roles. -/
theorem filter_isRole_linked (chain : Entries String) (items : List Item) :
    (linked chain items).filter (fun e => Template.isOfType e.2 "AWS::IAM::Role") =
      (items.filter Item.isRole).map fun item => (item.name, item.resource none) := by
  induction items generalizing chain with
  | nil => rfl
  | cons item rest ih =>
    rw [linked, List.filter_cons, List.filter_cons, ih, Item.isOfType_resource]
    by_cases role : item.isRole = true
    · rw [if_pos role, if_pos role, List.map_cons, Item.resource_of_isRole role]
    · rw [if_neg role, if_neg role]

theorem Step.Admitted.role_free {taken : List String} {step : Step} {item : Item}
    (admitted : step.Admitted taken) (asked : step.item? = some item) (role : item.isRole = true) :
    item.name ∉ taken := by
  cases step with
  | permission group function principal =>
    cases asked
    cases role
  | role request =>
    simp only [Step.item?] at asked
    split at asked
    · cases asked
      exact admitted.1
    · cases asked
  | _ => cases asked

/-- Where all steps can be taken, every role that they ask for is fresh. -/
theorem filter_isRole_fresh {taken : List String} {steps : List Step}
    (admitted : Admitted taken steps) :
    (fresh taken (steps.filterMap Step.item?)).filter Item.isRole =
      (steps.filterMap Step.item?).filter Item.isRole := by
  induction steps generalizing taken with
  | nil => rfl
  | cons step rest ih =>
    cases asked : step.item? with
    | none =>
      rw [List.filterMap_cons_none asked]
      exact ih (admitted.2.mono fun name member => List.mem_append_left _ member)
    | some item =>
      have named : askedNames [step] = [item.name] := by simp [askedNames, asked]
      rw [List.filterMap_cons_some asked, fresh]
      split
      · -- An item whose name is taken is no role, since its step is admitted.
        rename_i used
        have permission : ¬ item.isRole = true := fun role => admitted.1.role_free asked role used
        rw [List.filter_cons_of_neg permission]
        exact ih (admitted.2.mono fun name member => List.mem_append_left _ member)
      · rw [List.filter_cons, List.filter_cons, ih (named ▸ admitted.2)]

theorem ResolvedGroup.filter_isRole_items {g : ResolvedGroup} {functions : List Value}
    (members : g.functions = .ok functions) :
    g.items.filter Item.isRole =
      if g.isUsed then g.role.oneOrMany.filterMap (roleItem? g.ids) else [] := by
  have permissions : g.policyItems.filter Item.isRole = [] := by
    rw [List.filter_eq_nil_iff]
    intro item member
    obtain ⟨raw, -, inner⟩ := List.mem_flatMap.mp member
    split at inner
    · obtain ⟨function, -, rfl⟩ := List.mem_map.mp inner
      exact Bool.false_ne_true
    · cases inner
  have roles : g.roleItems.filter Item.isRole = g.roleItems := by
    rw [List.filter_eq_self]
    intro item member
    obtain ⟨directive, -, asked⟩ := List.mem_filterMap.mp member
    unfold roleItem? at asked
    split at asked <;> cases asked
    rfl
  rw [items, isUsed_eq members]
  cases g.ids.isEmpty with
  | true => rfl
  | false =>
    simp only [Bool.false_eq_true, ↓reduceIte, Bool.not_false, List.filter_append, permissions, roles,
      List.nil_append]
    rfl

theorem filter_isRole_items {groups : List ResolvedGroup} (texts : ∀ g ∈ groups, g.HasTextIds) :
    (items groups).filter Item.isRole =
      (directives groups).filterMap fun e => ResolvedGroup.roleItem? e.1.ids e.2 := by
  induction groups with
  | nil => rfl
  | cons g rest ih =>
    have others := ih fun h member => texts h (List.mem_cons_of_mem _ member)
    have members := (texts g List.mem_cons_self).ids_eq.1
    rw [items, List.flatMap_cons, List.filter_append, ← items, others,
      ResolvedGroup.filter_isRole_items members, directives, directives, List.filter_cons]
    by_cases used : g.isUsed = true
    · rw [if_pos used, if_pos used, List.flatMap_cons, List.filterMap_append, List.filterMap_map]
      rfl
    · rw [if_neg used, if_neg used, List.nil_append]

/-- A selection of items and what each of the items gives correspond where just the selected items give
something. -/
theorem forall₂_filter_filterMap {α β : Type} {R : α → β → Prop} {select : α → Bool}
    {give : α → Option β} {xs : List α} (each : ∀ x ∈ xs, select x = false ∧ give x = none ∨
      select x = true ∧ ∃ y, give x = some y ∧ R x y) :
    List.Forall₂ R (xs.filter select) (xs.filterMap give) := by
  induction xs with
  | nil => exact .nil
  | cons x rest ih =>
    have later := ih fun y member => each y (List.mem_cons_of_mem _ member)
    rcases each x List.mem_cons_self with ⟨left, nothing⟩ | ⟨selected, y, given, related⟩
    · rw [List.filter_cons_of_neg (by simp [left]), List.filterMap_cons_none nothing]
      exact later
    · rw [List.filter_cons_of_pos selected, List.filterMap_cons_some given]
      exact .cons related later

/-- The resource is the role that the directive describes for its group: its name, the functions of the
group in order, the principals of the directive in order, and what the directive says of sessions. -/
structure Describes (stated : ResolvedGroup × Value) (entry : String × Value) : Prop where
  name : entry.1 = statedName stated.2
  roleName : Template.roleName entry.2 = .text (stated.2.member "name").display
  policyName : Template.policyNames entry.2 = [.text (stated.2.member "name").display]
  functions : Template.governed entry.2 = stated.1.ids.map Template.functionRef
  principals : ∃ principals,
    (stated.2.member "principals").oneOrMany.mapM Principal.ofValue = .ok principals ∧
    Template.trusted entry.2 = principals.map Principal.emitted
  actions : Template.trustedActions entry.2 =
    if (stated.2.member "allowTagSession").truthy then
      [.text Template.assumeAction, .text Template.tagAction]
    else [.text Template.assumeAction]
  duration : Template.sessionLimit entry.2 = ResolvedGroup.sessionDuration stated.2

/-- A sound directive with principals asks for the role that it describes, and one without asks for none. -/
theorem describes_of_sound {g : ResolvedGroup} {directive : Value} (sound : SoundDirective directive) :
    listsPrincipals directive = false ∧ ResolvedGroup.roleItem? g.ids directive = none ∨
      listsPrincipals directive = true ∧ ∃ item, ResolvedGroup.roleItem? g.ids directive = some item ∧
        Describes (g, directive) (item.name, item.resource none) := by
  rcases ResolvedGroup.roleItem?_of_sound sound g.ids with none | ⟨lists, principals, read, role⟩
  · exact .inl none
  · refine .inr ⟨lists, _, role, ?_⟩
    exact
      { name := rfl
        roleName := by simp [Item.resource]
        policyName := by simp [Item.resource]
        functions := by simp [Item.resource]
        principals := ⟨principals, read, by simp [Item.resource]⟩
        actions := by simp [Item.resource]
        duration := by simp [Item.resource] }

/-- The roles that a pass adds are, in order, those that its directives with principals describe. -/
theorem roles_of_admitted {groups : List ResolvedGroup} {es : Entries Value}
    (texts : ∀ g ∈ groups, g.HasTextIds)
    (sound : ∀ g ∈ groups, g.isUsed = true → g.Sound) (admitted : Admitted es.names (plan groups)) :
    List.Forall₂ Describes ((directives groups).filter fun e => listsPrincipals e.2)
      ((linked [] (fresh es.names (items groups))).filter
        fun e => Template.isOfType e.2 "AWS::IAM::Role") := by
  have fresh := filter_isRole_fresh admitted
  rw [filterMap_item?_plan texts admitted, filter_isRole_items texts] at fresh
  rw [filter_isRole_linked, fresh, List.map_filterMap]
  apply forall₂_filter_filterMap
  rintro ⟨g, directive⟩ member
  rcases describes_of_sound (g := g) (sound_of_mem_directives sound member) with
    ⟨none, nothing⟩ | ⟨lists, item, asked, describes⟩
  · exact .inl ⟨none, by rw [nothing]; rfl⟩
  · exact .inr ⟨lists, _, by rw [asked]; rfl, describes⟩

/-- A pass over groups with which nothing is wrong succeeds just when no directive has a name that is taken
when the pass comes to it; else it is stopped at the first one that has. A pass that succeeds adds one role
for each directive with principals, in order, as the directive describes it. -/
theorem emit_roles (toHost : Bool) (groups : List ResolvedGroup) (es : Entries Value)
    (texts : ∀ g ∈ groups, g.HasTextIds) (sound : ∀ g ∈ groups, g.isUsed = true → g.Sound) :
    ((emit toHost groups ⟨.map es⟩).fault? = none ↔ Unoccupied es groups) ∧
    (∀ fault, (emit toHost groups ⟨.map es⟩).fault? = some fault →
      ∃ earlier g before directive, Stands groups earlier g before directive ∧
        Unoccupied es (earlier ++ [g.withDirectives before]) ∧
        Occupied es (earlier ++ [g.withDirectives before]) (statedName directive) ∧
        fault = .config (.duplicateRole g.name (directive.member "name"))) ∧
    ((emit toHost groups ⟨.map es⟩).fault? = none →
      ∃ added : List (String × Value),
        (emit toHost groups ⟨.map es⟩).reached.resources = ⟨.map (es ++ Entries.ofNamed added)⟩ ∧
        List.Forall₂ Describes ((directives groups).filter fun e => listsPrincipals e.2)
          (added.filter fun e => Template.isOfType e.2 "AWS::IAM::Role")) := by
  refine ⟨⟨?_, ?_⟩, fun fault failed => stopped_of_fault texts sound failed, ?_⟩
  · intro succeeded
    exact unoccupied_of_admitted texts sound ((emit_succeeds_iff toHost groups es texts).mp succeeded)
  · intro free
    by_contra stopped
    obtain ⟨fault, failed⟩ := Option.ne_none_iff_exists'.mp stopped
    obtain ⟨earlier, g, before, directive, stands, -, occupied, -⟩ :=
      stopped_of_fault texts sound failed
    exact free earlier g before directive stands occupied
  · intro succeeded
    refine ⟨_, emit_added toHost es texts succeeded, ?_⟩
    exact roles_of_admitted texts sound ((emit_succeeds_iff toHost groups es texts).mp succeeded)

/-- A directive that lists no one, one for the same role, and one whose principals may tag the session. -/
def staffDirectives : List Value :=
  [.object [("name", .text "ops"), ("principals", .text "")],
    .object [("name", .text "ops"), ("principals", .text "111111111111")],
    .object [("name", .text "audit"), ("principals", .list [.int 222222222222, .text "333333333333"]),
      ("allowTagSession", .bool true), ("maxSessionDuration", .int 7200)]]

/-- A group with roles, one that no function has joined, and one with a role named as an earlier one. -/
def staffedGroups : List ResolvedGroup :=
  [⟨.text "staff", .ok [.text "F", .text "G"], .object [("principals", .int 111111111111)],
      .list staffDirectives⟩,
    ⟨.text "idle", .ok [], .null, .text "none"⟩,
    ⟨.text "late", .ok [.text "F"], .null,
      .object [("name", .text "ops"), ("principals", .int 444444444444)]⟩]

theorem staffedGroups_texts : ∀ g ∈ staffedGroups, g.HasTextIds := by
  intro g member
  simp only [staffedGroups, List.mem_cons, List.not_mem_nil, or_false] at member
  rcases member with rfl | rfl | rfl
  · exact ⟨["F", "G"], rfl⟩
  · exact ⟨[], rfl⟩
  · exact ⟨["F"], rfl⟩

theorem staffedGroups_sound : ∀ g ∈ staffedGroups, g.isUsed = true → g.Sound := by
  intro g member used
  simp only [staffedGroups, List.mem_cons, List.not_mem_nil, or_false] at member
  rcases member with rfl | rfl | rfl
  · refine ⟨.inr ⟨rfl, ?_⟩, ?_⟩
    · intro raw listed
      rw [List.mem_singleton.mp listed]
      exact ⟨_, rfl⟩
    · intro directive stated
      have among : directive ∈ staffDirectives := stated
      simp only [staffDirectives, List.mem_cons, List.not_mem_nil, or_false] at among
      rcases among with rfl | rfl | rfl
      · refine ⟨⟨_, rfl⟩, rfl, rfl, fun raw listed => ?_⟩
        rw [List.mem_singleton.mp listed]
        exact ⟨_, rfl⟩
      · refine ⟨⟨_, rfl⟩, rfl, rfl, fun raw listed => ?_⟩
        rw [List.mem_singleton.mp listed]
        exact ⟨_, rfl⟩
      · refine ⟨⟨_, rfl⟩, rfl, rfl, fun raw listed => ?_⟩
        rcases List.mem_pair.mp listed with rfl | rfl <;> exact ⟨_, rfl⟩
  · cases used
  · refine ⟨.inl rfl, ?_⟩
    intro directive stated
    rw [List.mem_singleton.mp stated]
    refine ⟨⟨_, rfl⟩, rfl, rfl, ?_⟩
    intro raw listed
    rw [List.mem_singleton.mp listed]
    exact ⟨_, rfl⟩

theorem emit_roles_staffed :
    (∀ g ∈ staffedGroups, g.HasTextIds) ∧ (∀ g ∈ staffedGroups, g.isUsed = true → g.Sound) ∧
      (emit true staffedGroups ⟨.map []⟩).fault? =
        some (.config (.duplicateRole (.text "late") (.text "ops"))) ∧
      ¬ Unoccupied [] staffedGroups ∧
      (emit true (staffedGroups.take 2) ⟨.map []⟩).fault? = none ∧
      Unoccupied [] (staffedGroups.take 2) ∧
      ∃ added : List (String × Value),
        (emit true (staffedGroups.take 2) ⟨.map []⟩).reached.resources =
          ⟨.map (Entries.ofNamed added)⟩ ∧
        List.Forall₂ Describes
          ((directives (staffedGroups.take 2)).filter fun e => listsPrincipals e.2)
          (added.filter fun e => Template.isOfType e.2 "AWS::IAM::Role") ∧
        (added.filter fun e => Template.isOfType e.2 "AWS::IAM::Role").length = 2 := by
  have texts : ∀ g ∈ staffedGroups.take 2, g.HasTextIds :=
    fun g member => staffedGroups_texts g (List.mem_of_mem_take member)
  have sound : ∀ g ∈ staffedGroups.take 2, g.isUsed = true → g.Sound :=
    fun g member => staffedGroups_sound g (List.mem_of_mem_take member)
  have failed : (emit true staffedGroups ⟨.map []⟩).fault? =
      some (.config (.duplicateRole (.text "late") (.text "ops"))) := rfl
  have succeeded : (emit true (staffedGroups.take 2) ⟨.map []⟩).fault? = none := rfl
  obtain ⟨free, -, -⟩ := emit_roles true staffedGroups [] staffedGroups_texts staffedGroups_sound
  obtain ⟨clear, -, roles⟩ := emit_roles true (staffedGroups.take 2) [] texts sound
  obtain ⟨added, resources, described⟩ := roles succeeded
  refine ⟨staffedGroups_texts, staffedGroups_sound, failed, ?_, succeeded, clear.mp succeeded, added,
    resources, described, ?_⟩
  · rw [← free, failed]
    simp
  · rw [← described.length_eq]
    rfl

end AccessGroups

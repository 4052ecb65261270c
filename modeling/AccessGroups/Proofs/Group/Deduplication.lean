import AccessGroups.Proofs.Group.Request

/-!
Which grants stand. Permissions are told apart by their names, and a name keeps only what characters of
the principal may stand in one. So of all that ask for one name the first gets it: a grant stands
exactly when the first item of its name is for the same function and the same principal, and otherwise
that item stands in its place.
-/

set_option autoImplicit false

namespace AccessGroups

namespace Principal

/-- A principal that was read is its own text, or the mapping with what its first intrinsic key says. -/
theorem ofValue_cases {raw : Value} {principal : Principal} (read : ofValue raw = .ok principal) :
    (∃ value, principal = .literal value) ∨
      ∃ entries function argument, intrinsic? entries = some (function, argument) ∧
        principal = .exported function (String.ofList (argumentChars argument)) entries := by
  cases raw with
  | text s => exact Or.inl ⟨_, (Except.ok.inj read).symm⟩
  | int n => exact Or.inl ⟨_, (Except.ok.inj read).symm⟩
  | real x => exact Or.inl ⟨_, (Except.ok.inj read).symm⟩
  | map entries =>
    simp only [ofValue] at read
    cases found : intrinsic? entries with
    | none => simp [found] at read
    | some first =>
      simp only [found, Except.ok.injEq] at read
      exact Or.inr ⟨entries, first.1, first.2, found, read.symm⟩
  | _ => cases read

theorem eq_of_emitted_eq {raw other : Value} {principal second : Principal}
    (read : ofValue raw = .ok principal) (readOther : ofValue other = .ok second)
    (same : principal.emitted = second.emitted) : principal = second := by
  rcases ofValue_cases read with ⟨value, rfl⟩ | ⟨entries, function, argument, found, rfl⟩
  · rcases ofValue_cases readOther with ⟨value', rfl⟩ | ⟨_, _, _, _, rfl⟩
    · rw [Value.text.inj same]
    · cases same
  · rcases ofValue_cases readOther with ⟨_, rfl⟩ | ⟨entries', function', argument', found', rfl⟩
    · cases same
    · obtain rfl := Value.map.inj same
      rw [found] at found'
      cases found'
      rfl

end Principal

/-- The first of all items with a name that is free is fresh. -/
theorem mem_fresh_of_find? {taken : List String} {items : List Item} {name : String} {item : Item}
    (first : items.find? (fun other => other.name == name) = some item) (free : name ∉ taken) :
    item ∈ fresh taken items := by
  induction items generalizing taken with
  | nil => cases first
  | cons head rest ih =>
    unfold fresh
    by_cases here : head.name = name
    · simp only [List.find?_cons, here, beq_self_eq_true, Option.some.injEq] at first
      rw [here, if_neg free, first]
      exact List.mem_cons_self
    · simp only [List.find?_cons, beq_eq_false_iff_ne.mpr here] at first
      split
      · exact ih first free
      · apply List.mem_cons_of_mem
        apply ih first
        simp only [List.mem_append, List.mem_singleton, not_or]
        exact ⟨free, fun same => here same.symm⟩

theorem mem_linked_of_mem (chain : Entries String) {items : List Item} {item : Item}
    (member : item ∈ items) : ∃ previous, (item.name, item.resource previous) ∈ linked chain items := by
  induction items generalizing chain with
  | nil => cases member
  | cons head rest ih =>
    rcases List.mem_cons.mp member with rfl | later
    · exact ⟨_, List.mem_cons_self⟩
    · obtain ⟨previous, linked⟩ := ih _ later
      exact ⟨previous, List.mem_cons_of_mem _ linked⟩

/-- The first item of a name gives the resource that is added under it. -/
theorem mem_linked_of_first {items : List Item} {name : String} {first : Item}
    (found : items.find? (fun item => item.name == name) = some first) :
    ∃ previous, (name, first.resource previous) ∈ linked [] (fresh [] items) := by
  have named : first.name = name := by simpa using List.find?_some found
  obtain ⟨previous, here⟩ := mem_linked_of_mem [] (mem_fresh_of_find? found List.not_mem_nil)
  exact ⟨previous, named ▸ here⟩

/-- A grant is among what is added exactly when the first item of its name asks for it. -/
theorem granted_iff_first {items : List Item} (textual : ∀ item ∈ items, item.Textual)
    (readable : ∀ function principal, .permission function principal ∈ items →
      ∃ raw, Principal.ofValue raw = .ok principal)
    {id : String} {raw : Value} {principal : Principal} {first : Item}
    (read : Principal.ofValue raw = .ok principal)
    (found : items.find? (fun item => item.name == Identifier.permissionName id principal) =
      some first) :
    (∃ e ∈ linked [] (fresh [] items), Template.permitted? e.2 = some id ∧
        Template.grantee e.2 = Principal.emittedForm raw) ↔
      first = .permission (.text id) principal := by
  rw [← Principal.emitted_of_ofValue read]
  constructor
  · rintro ⟨⟨name, resource⟩, member, permitted, granted⟩
    obtain ⟨item, among, previous, rfl, rfl⟩ := mem_linked member
    have asked := (fresh_sublist _ _).subset among
    obtain ⟨other, rfl⟩ := (Item.isPermissionOf_iff id item).mp
      ((Item.permitted?_resource item (textual item asked) previous id).mp permitted)
    obtain ⟨_, readOther⟩ := readable _ _ asked
    have same : other.emitted = principal.emitted :=
      (Template.grantee_permission _ _ _).symm.trans granted
    rw [Principal.eq_of_emitted_eq readOther read same] at among
    have earliest : items.find? (fun item => item.name == Identifier.permissionName id principal) =
        some (.permission (.text id) principal) := find?_of_fresh among
    exact Option.some.inj (found.symm.trans earliest)
  · rintro rfl
    obtain ⟨previous, here⟩ := mem_linked_of_first found
    exact ⟨_, here, Template.permitted?_permission id principal _,
      Template.grantee_permission _ _ _⟩

namespace ResolvedGroup

/-- Where no step is refused, every principal of a used group's policy can be read, and there is an item
for it and each of the group's functions. -/
theorem permission_of_mem {g : ResolvedGroup} (texts : g.HasTextIds)
    (taken : ∀ fault, Step.refuse fault ∉ g.steps) {id : String} (joined : .text id ∈ g.ids)
    {raw : Value} (listed : raw ∈ g.policyPrincipals) :
    ∃ principal, Principal.ofValue raw = .ok principal ∧
      Item.permission (.text id) principal ∈ g.items := by
  cases read : Principal.ofValue raw with
  | ok principal =>
    exact ⟨principal, rfl, mem_items_of_principal joined listed read⟩
  | error fault =>
    have used : g.ids.isEmpty = false := by
      rw [List.isEmpty_eq_false_iff]
      exact List.ne_nil_of_mem joined
    have present : (g.policy.member "principals").isNull = false := by
      rw [Bool.eq_false_iff]
      intro null
      rw [policyPrincipals, Value.eq_null_of_isNull null] at listed
      cases listed
    have refused : Step.refuse (.config fault) ∈ g.steps := by
      rw [steps, isUsed_eq texts.ids_eq.1, used, Bool.not_false, if_pos rfl]
      apply List.mem_append_left
      rw [policySteps_of_principals present]
      refine List.mem_flatMap.mpr ⟨raw, listed, ?_⟩
      simp [principalSteps, read]
    exact absurd refused (taken _)

end ResolvedGroup

/-- Of the resources that a successful pass adds to an empty collection, the one under the name of a
permission that a group asks for is that of the first item with this name; and the function is granted
to the principal exactly when that item is for the same function and the same principal. -/
theorem emit_grants_iff_first (toHost : Bool) (groups : List ResolvedGroup)
    (texts : ∀ g ∈ groups, g.HasTextIds)
    (succeeded : (emit toHost groups Template.Collection.empty).fault? = none) :
    ∃ added : List (String × Value),
      (emit toHost groups Template.Collection.empty).reached.resources =
        ⟨.map (Entries.ofNamed added)⟩ ∧
      ∀ g ∈ groups, ∀ id : String, .text id ∈ g.ids → ∀ raw ∈ g.policyPrincipals,
        ∃ principal first previous, Principal.ofValue raw = .ok principal ∧
          (items groups).find? (fun item => item.name == Identifier.permissionName id principal) =
            some first ∧
          (Identifier.permissionName id principal, first.resource previous) ∈ added ∧
          ((∃ e ∈ added, Template.permitted? e.2 = some id ∧
              Template.grantee e.2 = Principal.emittedForm raw) ↔
            first = .permission (.text id) principal) := by
  have resources : (emit toHost groups Template.Collection.empty).reached.resources =
      ⟨.map (Entries.ofNamed (linked [] (fresh [] (items groups))))⟩ :=
    emit_added toHost [] texts succeeded
  have admitted := (emit_succeeds_iff toHost groups [] texts).mp succeeded
  refine ⟨_, resources, ?_⟩
  intro g among id joined raw listed
  obtain ⟨principal, read, asked⟩ := ResolvedGroup.permission_of_mem (texts g among)
    (fun fault refused => admitted.of_mem (List.mem_flatMap.mpr ⟨g, among, refused⟩)) joined listed
  have requested : Item.permission (.text id) principal ∈ items groups :=
    List.mem_flatMap.mpr ⟨g, among, asked⟩
  have among : ((items groups).find?
      (fun item => item.name == Identifier.permissionName id principal)).isSome = true :=
    List.find?_isSome.mpr ⟨_, requested, beq_self_eq_true (Item.name _)⟩
  obtain ⟨first, found⟩ := Option.isSome_iff_exists.mp among
  obtain ⟨previous, here⟩ := mem_linked_of_first found
  refine ⟨principal, first, previous, read, found, here, granted_iff_first ?_ ?_ read found⟩
  · exact fun _ => textual_of_mem_items texts
  · intro function other member
    obtain ⟨h, -, inside⟩ := List.mem_flatMap.mp member
    obtain ⟨-, declared, -, readable, -⟩ := ResolvedGroup.permission_mem_items inside
    exact ⟨declared, readable⟩

/-- Two roles of one account whose names differ in a dash and a capital only. -/
def collidingGroups : List ResolvedGroup :=
  [⟨.text "api", .ok [.text "F"],
    .object [("principals", .list [.text "arn:aws:iam::111111111111:role/app-admin",
      .text "arn:aws:iam::111111111111:role/appAdmin", .int 222222222222])], .null⟩]

theorem collidingGroups_texts : ∀ g ∈ collidingGroups, g.HasTextIds := by
  intro g member
  rw [List.mem_singleton.mp member]
  exact ⟨["F"], rfl⟩

theorem emit_grants_iff_first_colliding :
    (∀ g ∈ collidingGroups, g.HasTextIds) ∧
      (emit true collidingGroups Template.Collection.empty).fault? = none ∧
      ∃ added : List (String × Value),
        (emit true collidingGroups Template.Collection.empty).reached.resources =
          ⟨.map (Entries.ofNamed added)⟩ ∧
        ∃ e ∈ added, Template.permitted? e.2 = some "F" ∧
          Template.grantee e.2 = .text "222222222222" := by
  have succeeded : (emit true collidingGroups Template.Collection.empty).fault? = none := rfl
  obtain ⟨added, resources, each⟩ :=
    emit_grants_iff_first true collidingGroups collidingGroups_texts succeeded
  refine ⟨collidingGroups_texts, succeeded, added, resources, ?_⟩
  obtain ⟨principal, first, previous, read, found, -, granted⟩ :=
    each _ List.mem_cons_self "F" List.mem_cons_self (.int 222222222222)
      (by simp [ResolvedGroup.policyPrincipals, Value.oneOrMany])
  cases read
  exact granted.mpr (Option.some.inj found.symm)

/-- The pass leaves out the second of the two roles and says nothing. -/
theorem emit_drops_grant :
    (∀ g ∈ collidingGroups, g.HasTextIds) ∧
      (emit true collidingGroups Template.Collection.empty).fault? = none ∧
      ∃ added : List (String × Value),
        (emit true collidingGroups Template.Collection.empty).reached.resources =
          ⟨.map (Entries.ofNamed added)⟩ ∧
        ¬ ∃ e ∈ added, Template.permitted? e.2 = some "F" ∧
          Template.grantee e.2 =
            Principal.emittedForm (.text "arn:aws:iam::111111111111:role/appAdmin") := by
  have all : linked [] (fresh [] (items collidingGroups)) =
      [("FPermitInvokeFromArnAwsIam111111111111RoleAppAdmin",
          Template.permission (.text "F") (.literal "arn:aws:iam::111111111111:role/app-admin") .null),
        ("FPermitInvokeFrom222222222222",
          Template.permission (.text "F") (.literal "222222222222")
            (.text "FPermitInvokeFromArnAwsIam111111111111RoleAppAdmin"))] := rfl
  have succeeded : (emit true collidingGroups Template.Collection.empty).fault? = none := rfl
  refine ⟨collidingGroups_texts, succeeded, _, emit_added true [] collidingGroups_texts succeeded, ?_⟩
  rintro ⟨e, member, -, granted⟩
  have listed : e ∈ linked [] (fresh [] (items collidingGroups)) := member
  rw [all] at listed
  simp only [List.mem_cons, List.not_mem_nil, or_false] at listed
  rcases listed with rfl | rfl <;>
    simp [Template.grantee_permission, Principal.emitted, Principal.emittedForm] at granted

end AccessGroups

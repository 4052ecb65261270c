import AccessGroups.Proofs.Group.Request

/-!
What a successful pass adds. The items of all groups in one list say everything: each free name of the
list is added once, where it first occurs, with the resource of its first item, and what was there
before stands unchanged in front of it.
-/

set_option autoImplicit false

namespace AccessGroups

/-- What can be read off a resource is what an item asks for. -/
def Item.ReadOff (resource : Value) : Item → Prop
  | .permission function principal =>
    (Template.permitted? resource).map .text = some function ∧
      Template.grantee resource = principal.emitted
  | .role name functions principals tagSession duration =>
    Template.roleName resource = .text name ∧
      Template.governed resource = functions.map Template.functionRef ∧
      Template.trusted resource = principals.map Principal.emitted ∧
      Template.tagsSession resource = tagSession ∧ Template.sessionLimit resource = duration

theorem Item.readOff_resource {item : Item} (textual : item.Textual) (previous : Option String) :
    item.ReadOff (item.resource previous) := by
  cases item with
  | permission function principal =>
    obtain ⟨id, rfl⟩ := textual
    simp [ReadOff, resource]
  | role => simp [ReadOff, resource]

theorem first_of_mem_linked {chain : Entries String} {taken : List String} {items : List Item}
    {name : String} {resource : Value}
    (member : (name, resource) ∈ linked chain (fresh taken items)) :
    ∃ item previous, items.find? (fun other => other.name == name) = some item ∧
      resource = item.resource previous := by
  obtain ⟨item, among, previous, rfl, same⟩ := mem_linked member
  exact ⟨item, previous, find?_of_fresh among, same⟩

/-- A pass that succeeds on a mapping leaves its entries as they are and adds, in the order in which
the items of the groups first name them, the names that were free. What can be read off an added resource
is what the first item of its name asks for, and an item asks for what its group declares. -/
theorem emit_content (toHost : Bool) (groups : List ResolvedGroup) (es : Entries Value)
    (texts : ∀ g ∈ groups, g.HasTextIds)
    (succeeded : (emit toHost groups ⟨.map es⟩).fault? = none) :
    ∃ added : List (String × Value),
      (emit toHost groups ⟨.map es⟩).reached.resources = ⟨.map (es ++ Entries.ofNamed added)⟩ ∧
      added.map Prod.fst =
        (((items groups).map Item.name).filter fun name => !es.has (.text name)).eraseDups ∧
      (∀ name resource, (name, resource) ∈ added →
        ∃ item previous, (items groups).find? (fun other => other.name == name) = some item ∧
          resource = item.resource previous ∧ item.ReadOff resource) ∧
      (∀ function principal, .permission function principal ∈ items groups →
        ∃ g ∈ groups, function ∈ g.ids ∧ ∃ raw ∈ g.policyPrincipals,
          Principal.ofValue raw = .ok principal ∧
          principal.emitted = Principal.emittedForm raw) ∧
      ∀ name functions principals tagSession duration,
        .role name functions principals tagSession duration ∈ items groups →
        ∃ g ∈ groups, functions = g.ids ∧ ∃ directive ∈ g.role.oneOrMany,
          name = (directive.member "name").display ∧
          ResolvedGroup.rolePrincipals (directive.member "principals") = .ok principals ∧
          tagSession = (directive.member "allowTagSession").truthy ∧
          duration = ResolvedGroup.sessionDuration directive := by
  refine ⟨_, emit_added toHost es texts succeeded, ?_, ?_, ?_, ?_⟩
  · rw [names_linked, names_fresh]
    congr 2
    funext name
    rw [Bool.eq_iff_iff, decide_eq_true_iff, ← Entries.has_text_iff, Bool.not_eq_true',
      Bool.not_eq_true]
  · intro name resource member
    obtain ⟨item, previous, first, rfl⟩ := first_of_mem_linked member
    have textual := textual_of_mem_items texts (List.mem_of_find?_eq_some first)
    exact ⟨item, previous, first, rfl, item.readOff_resource textual previous⟩
  · intro function principal member
    obtain ⟨g, among, inner⟩ := List.mem_flatMap.mp member
    exact ⟨g, among, ResolvedGroup.permission_mem_items inner⟩
  · intro name functions principals tagSession duration member
    obtain ⟨g, among, inner⟩ := List.mem_flatMap.mp member
    exact ⟨g, among, ResolvedGroup.role_mem_items inner⟩

theorem emit_content_sharing :
    (∀ g ∈ sharingGroups, g.HasTextIds) ∧
      (emit true sharingGroups ⟨.map [(.text "Table", .null)]⟩).fault? = none ∧
      ∃ added : List (String × Value),
        (emit true sharingGroups ⟨.map [(.text "Table", .null)]⟩).reached.resources =
          ⟨.map ([(.text "Table", .null)] ++ Entries.ofNamed added)⟩ ∧
        added.map Prod.fst =
          ["FPermitInvokeFrom111111111111", "GPermitInvokeFrom111111111111",
            "FPermitInvokeFrom222222222222", "GPermitInvokeFrom222222222222",
            "FPermitInvokeFrom333333333333", "LambdaAccessRoleOps"] ∧
        (∃ resource, ("GPermitInvokeFrom222222222222", resource) ∈ added ∧
          Template.permitted? resource = some "G" ∧
          Template.grantee resource = .text "222222222222") ∧
        ∃ resource, ("LambdaAccessRoleOps", resource) ∈ added ∧
          Template.governed resource = [Template.functionRef (.text "F")] ∧
          Template.trusted resource = [.text "111111111111"] ∧
          Template.tagsSession resource = false ∧ Template.sessionLimit resource = .int 3600 := by
  have succeeded : (emit true sharingGroups ⟨.map [(.text "Table", .null)]⟩).fault? = none := rfl
  obtain ⟨added, resources, names, each, -⟩ :=
    emit_content true sharingGroups [(.text "Table", .null)] sharingGroups_texts succeeded
  have names : added.map Prod.fst =
      ["FPermitInvokeFrom111111111111", "GPermitInvokeFrom111111111111",
        "FPermitInvokeFrom222222222222", "GPermitInvokeFrom222222222222",
        "FPermitInvokeFrom333333333333", "LambdaAccessRoleOps"] := names.trans (by decide)
  have present (name : String) (listed : name ∈ added.map Prod.fst) :
      ∃ resource, (name, resource) ∈ added := by
    obtain ⟨⟨_, resource⟩, member, rfl⟩ := List.mem_map.mp listed
    exact ⟨resource, member⟩
  refine ⟨sharingGroups_texts, succeeded, added, resources, names, ?_, ?_⟩
  · obtain ⟨resource, member⟩ := present "GPermitInvokeFrom222222222222" (by simp [names])
    obtain ⟨item, previous, first, -, read⟩ := each _ _ member
    cases first
    exact ⟨resource, member, by simpa using read.1, read.2⟩
  · obtain ⟨resource, member⟩ := present "LambdaAccessRoleOps" (by simp [names])
    obtain ⟨item, previous, first, -, read⟩ := each _ _ member
    cases first
    exact ⟨resource, member, read.2⟩

end AccessGroups

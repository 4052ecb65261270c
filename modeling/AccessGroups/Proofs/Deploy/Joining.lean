import AccessGroups.Proofs.Deploy.Frame
import AccessGroups.Proofs.Group.Repetition

/-!
Joined groups. A declared group is joined when a function of the service names it. Once all memberships are
resolved, the groups that are used are the joined ones, so what a deployment does for its groups can be said of
the service alone.
-/

set_option autoImplicit false

namespace AccessGroups.Deploy

/-- A group that the service declares and that one of its functions names. -/
structure IsJoined (service : Value) (group : Value × Value) : Prop where
  declared : ∃ groups, (accessOf service).member "groups" = .map groups ∧ group ∈ groups
  named : ∃ functions, functionsOf service = .map functions ∧ ∃ function ∈ functions,
    ∃ name ∈ namedGroups function.2, Value.same group.1 name = true

/-- Which groups are joined depends on the functions and on the access block only. -/
theorem IsJoined.of_declarations {service other : Value} {group : Value × Value}
    (joined : IsJoined service group) (functions : functionsOf service = functionsOf other)
    (access : accessOf service = accessOf other) : IsJoined other group :=
  ⟨access ▸ joined.declared, functions ▸ joined.named⟩

/-- The groups that the service declares are a mapping, so that each has a name of its own. -/
def DistinctGroups (service : Value) : Prop :=
  ∀ groups, (accessOf service).member "groups" = .map groups → Entries.Distinct groups

/-- Template resources can be put into the service: their block and the collection in it are mappings
where they are there. -/
structure Receptive (service : Value) : Prop where
  block : service.member "resources" = .null ∨ ∃ es, service.member "resources" = .map es
  collection : resourcesOf service = .null ∨ ∃ es, resourcesOf service = .map es

/-- Resources can be opened where there is a place for them, and what is opened is a mapping. -/
theorem Receptive.opened {es : Entries Value} (receptive : Receptive (.map es)) :
    ∃ resources fs, OpenResources.ofService es = .ok resources ∧
      resources.collection = ⟨.map fs⟩ := by
  have block : (Entries.get? es blockKey).getD .null = (Value.map es).member "resources" := rfl
  have inner : resourcesOf (.map es) = ((Value.map es).member "resources").member "Resources" := rfl
  unfold OpenResources.ofService
  rw [block]
  rcases receptive.block with missing | ⟨fs, given⟩
  · rw [missing]
    exact ⟨⟨[], .empty⟩, [], rfl, rfl⟩
  · have held : (Entries.get? fs collectionKey).getD .null = resourcesOf (.map es) := by
      rw [inner, given]
      rfl
    rw [given]
    simp only [bind, Except.bind]
    rw [held]
    rcases receptive.collection with missing | ⟨gs, given⟩
    · rw [missing]
      exact ⟨⟨fs, .empty⟩, [], rfl, rfl⟩
    · rw [given]
      exact ⟨⟨fs, ⟨.map gs⟩⟩, gs, rfl, rfl⟩

section Resolved

variable {scheme : Identifier.IdScheme} {service : Value} {groups functions : Entries Value}
  (declares : (accessOf service).member "groups" = .map groups)
  (declared : functionsOf service = .map functions) (distinct : DistinctGroups service)
  (resolved : (resolve scheme (.map groups) (.map functions)).fault? = none)

include declares distinct resolved

theorem groups_of_resolved :
    (resolve scheme (.map groups) (.map functions)).reached.groups =
      resolvedGroups scheme groups functions :=
  (resolve_spec scheme groups functions (distinct groups declares)).2 resolved

include declared

/-- A group that is used is joined, and it carries what is declared. -/
theorem isJoined_of_isUsed {g : ResolvedGroup}
    (among : g ∈ (resolve scheme (.map groups) (.map functions)).reached.groups.map Prod.snd)
    (used : g.isUsed = true) :
    ∃ group, IsJoined service group ∧ g.name = group.1 ∧ g.policy = group.2.member "policy" ∧
      g.role = group.2.member "role" := by
  rw [groups_of_resolved declares distinct resolved] at among
  obtain ⟨group, listed, rfl⟩ := mem_resolvedGroups among
  have some : memberIds scheme functions group.1 ≠ [] := by
    simpa [ResolvedGroup.isUsed, Members.isEmpty] using used
  obtain ⟨id, member⟩ := List.exists_mem_of_ne_nil _ some
  obtain ⟨function, enrolled, -, named⟩ := (mem_memberIds_iff scheme functions group.1 id).mp member
  exact ⟨group, ⟨⟨groups, declares, listed⟩, functions, declared, function, enrolled, named⟩, rfl, rfl,
    rfl⟩

theorem isUsed_of_isJoined {group : Value × Value} (joined : IsJoined service group) :
    ∃ g ∈ (resolve scheme (.map groups) (.map functions)).reached.groups.map Prod.snd,
      g.isUsed = true ∧ g.role = group.2.member "role" := by
  obtain ⟨⟨others, given, listed⟩, more, given', function, enrolled, name, naming, same⟩ := joined
  obtain rfl : others = groups := Value.map.inj (given.symm.trans declares)
  obtain rfl : more = functions := Value.map.inj (given'.symm.trans declared)
  have enrollable := ((resolve_spec scheme others more (distinct others declares)).1.mp resolved).2
    function enrolled
  obtain ⟨⟨id, scheming⟩, -⟩ := enrollable.2 (truthy_of_mem_namedGroups naming)
  have member : id ∈ memberIds scheme more group.1 :=
    (mem_memberIds_iff scheme more group.1 id).mpr ⟨function, enrolled, scheming, name, naming, same⟩
  rw [groups_of_resolved declares distinct resolved]
  refine ⟨_, List.mem_map_of_mem (List.mem_map_of_mem listed), ?_, rfl⟩
  simpa [ResolvedGroup.isUsed, ResolvedGroup.enlist, ResolvedGroup.declared, Except.map,
    Members.isEmpty] using List.ne_nil_of_mem member

/-- The roles that used groups ask for are those that the directives of joined groups name. -/
theorem namesRole_iff (name : String) :
    NamesRole ((resolve scheme (.map groups) (.map functions)).reached.groups.map Prod.snd) name ↔
      ∃ group, IsJoined service group ∧ ∃ directive ∈ (group.2.member "role").oneOrMany,
        Identifier.roleResourceName (directive.member "name").display = name := by
  constructor
  · rintro ⟨g, among, used, directive, stated, same⟩
    obtain ⟨group, joined, -, -, role⟩ :=
      isJoined_of_isUsed declares declared distinct resolved among used
    exact ⟨group, joined, directive, role ▸ stated, same⟩
  · rintro ⟨group, joined, directive, stated, same⟩
    obtain ⟨g, among, used, role⟩ :=
      isUsed_of_isJoined declares declared distinct resolved joined
    exact ⟨g, among, used, directive, role ▸ stated, same⟩

end Resolved

end AccessGroups.Deploy

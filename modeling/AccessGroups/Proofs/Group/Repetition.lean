import AccessGroups.Proofs.Group.Refusal

/-!
Passes that are repeated. A pass over what it has left before finds every name taken that it asks for. So it
adds nothing, and it is stopped by a role whose name is taken or by nothing at all: whatever else can stop a
pass would have stopped it the first time.
-/

set_option autoImplicit false

namespace AccessGroups

theorem fresh_eq_nil {taken : List String} {items : List Item}
    (asked : ∀ item ∈ items, item.name ∈ taken) : fresh taken items = [] := by
  rw [List.eq_nil_iff_forall_not_mem]
  intro item member
  exact not_mem_taken_of_fresh member (asked item ((fresh_sublist taken items).subset member))

theorem taken_of_emitted {toHost : Bool} {groups : List ResolvedGroup} {es fs : Entries Value}
    (texts : ∀ g ∈ groups, g.HasTextIds)
    (succeeded : (emit toHost groups ⟨.map es⟩).fault? = none)
    (left : (emit toHost groups ⟨.map es⟩).reached.resources = ⟨.map fs⟩) :
    ∀ name ∈ askedNames (plan groups), name ∈ fs.names := by
  intro name member
  have admitted := (emit_succeeds_iff toHost groups es texts).mp succeeded
  rw [emit_added toHost es texts succeeded] at left
  obtain rfl := Value.map.inj (Template.Collection.mk.inj left)
  rw [askedNames, filterMap_item?_plan texts admitted] at member
  rw [Entries.names_append, Entries.names_ofNamed, names_linked, names_fresh, List.mem_append,
    List.mem_eraseDups, List.mem_filter, decide_eq_true_iff]
  by_cases old : name ∈ es.names
  · exact Or.inl old
  · exact Or.inr ⟨member, old⟩

/-- A step that another pass has taken is refused only if it is a role, for its name. -/
theorem Step.Admitted.refusal? {step : Step} {fewer taken : List String}
    (admitted : step.Admitted fewer) {fault : Fault} (refused : step.refusal? taken = some fault) :
    ∃ request, step = .role request ∧
      Identifier.roleResourceName request.role.display ∈ taken ∧
      fault = .config (.duplicateRole request.group request.role) := by
  cases step with
  | role request =>
    obtain ⟨-, principals, named⟩ := admitted
    simp only [Step.refusal?, named] at refused
    split at refused
    · rename_i used
      exact ⟨request, rfl, used, (Option.some.inj refused).symm⟩
    · cases refused
  | refuse fault => exact admitted.elim
  | _ => cases refused

/-- A directive of one of the groups that are used asks for a role of the given name. -/
def NamesRole (groups : List ResolvedGroup) (name : String) : Prop :=
  ∃ g ∈ groups, g.isUsed = true ∧ ∃ directive ∈ g.role.oneOrMany,
    Identifier.roleResourceName (directive.member "name").display = name

namespace ResolvedGroup

theorem used_of_role_mem_steps {g : ResolvedGroup} {request : RoleRequest}
    (member : Step.role request ∈ g.steps) : g.isUsed = true := by
  unfold steps at member
  split at member
  · assumption
  · cases List.mem_singleton.mp member

/-- Where no step is refused, every directive of a used group asks for a role. -/
theorem role_mem_steps {g : ResolvedGroup} (used : g.isUsed = true)
    (taken : ∀ fault, Step.refuse fault ∉ g.steps) {directive : Value}
    (stated : directive ∈ g.role.oneOrMany) :
    ∃ request, Step.role request ∈ g.steps ∧ request.role = directive.member "name" := by
  have member : g.roleStep directive ∈ g.steps := by
    rw [steps, if_pos used]
    exact List.mem_append_right _ (List.mem_map_of_mem stated)
  rcases roleStep_cases g directive with asked | ⟨fault, refused⟩
  · exact ⟨_, asked ▸ member, rfl⟩
  · exact absurd (refused ▸ member) (taken fault)

end ResolvedGroup

/-- An admitted plan asks for the roles of the directives of used groups. -/
theorem exists_role_iff_namesRole {groups : List ResolvedGroup} {names : List String}
    (admitted : Admitted names (plan groups)) (name : String) :
    (∃ request, Step.role request ∈ plan groups ∧
        Identifier.roleResourceName request.role.display = name) ↔ NamesRole groups name := by
  constructor
  · rintro ⟨request, planned, rfl⟩
    obtain ⟨g, among, member⟩ := List.mem_flatMap.mp planned
    obtain ⟨directive, stated, rfl⟩ := ResolvedGroup.directive_of_mem_steps member
    exact ⟨g, among, ResolvedGroup.used_of_role_mem_steps member, directive, stated, rfl⟩
  · rintro ⟨g, among, used, directive, stated, rfl⟩
    obtain ⟨request, member, same⟩ := ResolvedGroup.role_mem_steps used
      (fun fault refused => admitted.of_mem (List.mem_flatMap.mpr ⟨g, among, refused⟩)) stated
    exact ⟨request, List.mem_flatMap.mpr ⟨g, among, member⟩, by rw [same]⟩

/-- A pass over what the same pass has left adds nothing. It is stopped by a role whose name is taken, if
there is one, and by nothing else. -/
theorem emit_emitted {toHost : Bool} {groups : List ResolvedGroup} {es fs : Entries Value}
    (texts : ∀ g ∈ groups, g.HasTextIds)
    (succeeded : (emit toHost groups ⟨.map es⟩).fault? = none)
    (left : (emit toHost groups ⟨.map es⟩).reached.resources = ⟨.map fs⟩) :
    (emit toHost groups ⟨.map fs⟩).reached.resources = ⟨.map fs⟩ ∧
      ((∃ name, NamesRole groups name ∧ fs.has (.text name) = true) →
        ∃ group role, (emit toHost groups ⟨.map fs⟩).fault? =
          some (.config (.duplicateRole group role))) ∧
      ((¬ ∃ name, NamesRole groups name ∧ fs.has (.text name) = true) →
        (emit toHost groups ⟨.map fs⟩).fault? = none) := by
  have admitted := (emit_succeeds_iff toHost groups es texts).mp succeeded
  have taken := taken_of_emitted texts succeeded left
  have outcome : (emit toHost groups ⟨.map fs⟩).fault? =
      (plan groups).findSome? (Step.refusal? fs.names) := by
    rw [emit_fault? toHost fs texts, refusal?_of_taken taken]
  refine ⟨?_, ?_, ?_⟩
  · obtain ⟨before, rest, emission⟩ := emit_emission toHost groups fs texts
    rw [emission.resources, fresh_eq_nil]
    · simp [linked]
    · intro item member
      apply taken
      rw [emission.steps_eq, askedNames, List.filterMap_append, List.map_append]
      exact List.mem_append_left _ (List.mem_map_of_mem member)
  · rintro ⟨name, named, used⟩
    obtain ⟨request, planned, rfl⟩ := (exists_role_iff_namesRole admitted name).mpr named
    cases found : (plan groups).findSome? (Step.refusal? fs.names) with
    | none =>
      have free := List.findSome?_eq_none_iff.mp found _ planned
      rw [Step.refusal?_eq_none_iff] at free
      exact absurd ((Entries.has_text_iff _ _).mp used) free.1
    | some fault =>
      obtain ⟨step, member, refused⟩ := List.exists_of_findSome?_eq_some found
      obtain ⟨request, -, -, rfl⟩ := (admitted.of_mem member).refusal? refused
      exact ⟨_, _, outcome.trans found⟩
  · intro free
    rw [outcome, List.findSome?_eq_none_iff]
    intro step member
    cases refused : step.refusal? fs.names with
    | none => rfl
    | some fault =>
      obtain ⟨request, rfl, used, -⟩ := (admitted.of_mem member).refusal? refused
      exact absurd ⟨_, (exists_role_iff_namesRole admitted _).mp ⟨request, member, rfl⟩,
        (Entries.has_text_iff _ _).mpr used⟩ free

end AccessGroups

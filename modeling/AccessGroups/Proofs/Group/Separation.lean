import AccessGroups.Proofs.Group.Deduplication
import AccessGroups.Proofs.Group.Refusal
import AccessGroups.Proofs.Identifier.Decoding

/-!
Names that separate. The name of a permission on a plainly named function tells the function and the
fragment of the principal, and no role has it. So where all functions have plain names, a pass skips a
permission only for an entry that was there before or for a permission on the same function and with the
same fragment, and it refuses a role only for an entry that was there before or for another role.
-/

set_option autoImplicit false

namespace AccessGroups

open Identifier

theorem Principal.badPrincipal_of_ofValue {raw : Value} {fault : ConfigFault}
    (unreadable : ofValue raw = .error fault) : fault = .badPrincipal raw := by
  cases raw with
  | map es =>
    simp only [ofValue] at unreadable
    split at unreadable
    · cases unreadable
    · exact (Except.error.inj unreadable).symm
  | text s => cases unreadable
  | int n => cases unreadable
  | real x => cases unreadable
  | _ => exact (Except.error.inj unreadable).symm

namespace ResolvedGroup

def HasPlainIds (g : ResolvedGroup) : Prop :=
  ∃ names : List String, (∀ name ∈ names, isPlainName name = true) ∧
    g.functions = .ok (names.map fun name => .text (logicalId name))

theorem HasPlainIds.hasTextIds {g : ResolvedGroup} (plain : g.HasPlainIds) : g.HasTextIds := by
  obtain ⟨names, -, members⟩ := plain
  exact ⟨names.map logicalId, by rw [members, List.map_map]; rfl⟩

theorem HasPlainIds.exists_name {g : ResolvedGroup} (plain : g.HasPlainIds) {function : Value}
    (joined : function ∈ g.ids) :
    ∃ name, isPlainName name = true ∧ function = .text (logicalId name) := by
  obtain ⟨names, plainly, members⟩ := plain
  simp only [ids, members] at joined
  obtain ⟨name, among, rfl⟩ := List.mem_map.mp joined
  exact ⟨name, plainly name among, rfl⟩

theorem duplicateRole_not_mem_policySteps (g : ResolvedGroup) (group role : Value) :
    Step.refuse (.config (.duplicateRole group role)) ∉ g.policySteps := by
  intro member
  unfold policySteps at member
  split at member
  · cases member
  · split at member
    · cases List.mem_singleton.mp member
    · obtain ⟨raw, -, inner⟩ := List.mem_flatMap.mp member
      unfold principalSteps at inner
      split at inner
      · obtain ⟨function, -, same⟩ := List.mem_map.mp inner
        cases same
      · cases List.mem_singleton.mp inner
      · rename_i cause unreadable
        rw [Principal.badPrincipal_of_ofValue unreadable] at inner
        cases List.mem_singleton.mp inner

theorem roleStep_ne_duplicateRole (g : ResolvedGroup) (directive group role : Value) :
    g.roleStep directive ≠ .refuse (.config (.duplicateRole group role)) := by
  unfold roleStep
  split
  · simp only
    split
    · simp
    · split <;> simp
  · simp

/-- No step of a group is a refusal for the name of a role: a pass finds out itself that it is taken. -/
theorem duplicateRole_not_mem_steps (g : ResolvedGroup) (group role : Value) :
    Step.refuse (.config (.duplicateRole group role)) ∉ g.steps := by
  intro member
  unfold steps at member
  split at member
  · rcases List.mem_append.mp member with policy | stated
    · exact duplicateRole_not_mem_policySteps g group role policy
    · obtain ⟨directive, -, same⟩ := List.mem_map.mp stated
      exact roleStep_ne_duplicateRole g directive group role same
  · cases List.mem_singleton.mp member

theorem taken_of_duplicateRole {g : ResolvedGroup} {step : Step} (member : step ∈ g.steps)
    {names : List String} {group role : Value}
    (refused : step.refusal? names = some (.config (.duplicateRole group role))) :
    roleResourceName role.display ∈ names := by
  cases step with
  | role request =>
    simp only [Step.refusal?] at refused
    split at refused
    · rename_i taken
      cases refused
      exact taken
    · obtain ⟨directive, -, rfl⟩ := directive_of_mem_steps member
      split at refused
      · cases refused
      · rename_i fault failed
        obtain ⟨raw, -, unreadable⟩ := exists_unreadable_of_rolePrincipals failed
        rw [Principal.badPrincipal_of_ofValue unreadable] at refused
        cases refused
  | refuse fault =>
    obtain rfl := Option.some.inj refused
    exact absurd member (duplicateRole_not_mem_steps g group role)
  | _ => cases refused

end ResolvedGroup

theorem plain_of_mem_items {groups : List ResolvedGroup} (plain : ∀ g ∈ groups, g.HasPlainIds)
    {function : Value} {principal : Principal}
    (member : .permission function principal ∈ items groups) :
    ∃ name, isPlainName name = true ∧ function = .text (logicalId name) := by
  obtain ⟨g, among, inside⟩ := List.mem_flatMap.mp member
  exact (plain g among).exists_name (ResolvedGroup.permission_mem_items inside).1

/-- An item that has the name of a permission on a plainly named function is a permission on the same
function and with the same fragment. -/
theorem permission_of_name_eq {groups : List ResolvedGroup} (plain : ∀ g ∈ groups, g.HasPlainIds)
    {name : String} (named : isPlainName name = true) {principal : Principal} {other : Item}
    (member : other ∈ items groups)
    (same : other.name = permissionName (logicalId name) principal) :
    ∃ second : Principal, other = .permission (.text (logicalId name)) second ∧
      second.name = principal.name := by
  cases other with
  | permission function second =>
    obtain ⟨other, plainly, rfl⟩ := plain_of_mem_items plain member
    obtain ⟨rfl, fragments⟩ := eq_of_permissionName_eq plainly named same
    exact ⟨second, rfl, fragments⟩
  | role role _ _ _ _ =>
    exact absurd same.symm (permissionName_ne_roleResourceName_of_plain named principal role)

theorem role_of_name_eq {groups : List ResolvedGroup} (plain : ∀ g ∈ groups, g.HasPlainIds)
    {role : String} {other : Item} (member : other ∈ items groups)
    (same : other.name = roleResourceName role) (previous : Option String) :
    Template.isOfType (other.resource previous) "AWS::IAM::Role" = true := by
  cases other with
  | permission function principal =>
    obtain ⟨name, named, rfl⟩ := plain_of_mem_items plain member
    exact absurd same (permissionName_ne_roleResourceName_of_plain named principal role)
  | role => exact Template.isOfType_role_role _ _ _ _ _

/-- Of what a pass has completed and added beside the entries `es`: a permission that it did not add has an
entry that was there before or a permission of its own kind in its place, and a role that it refused as a
duplicate has an entry that was there before or another role in its place. -/
structure KindsApart (es : Entries Value) (completed : List Step) (added : List (String × Value))
    (fault? : Option Fault) : Prop where
  merged : ∀ group function principal, .permission group function principal ∈ completed →
    es.has (.text (permissionName function.display principal)) = true ∨
      ∃ second previous, Principal.name second = principal.name ∧
        (permissionName function.display principal,
          Template.permission function second previous) ∈ added
  refused : ∀ group role, fault? = some (.config (.duplicateRole group role)) →
    es.has (.text (roleResourceName role.display)) = true ∨
      ∃ resource, (roleResourceName role.display, resource) ∈ added ∧
        Template.isOfType resource "AWS::IAM::Role" = true

/-- In a pass over groups of plainly named functions the kinds stay apart. -/
theorem kindsApart_of_emission {toHost : Bool} {groups : List ResolvedGroup} {es : Entries Value}
    (plain : ∀ g ∈ groups, g.HasPlainIds) {before rest : List Step}
    (emission : Emission (Pass.start ⟨.map es⟩) es (plan groups) (emit toHost groups ⟨.map es⟩)
      before rest) :
    KindsApart es before (linked [] (fresh es.names (before.filterMap Step.item?)))
      (emit toHost groups ⟨.map es⟩).fault? := by
  have texts : ∀ g ∈ groups, g.HasTextIds := fun g member => (plain g member).hasTextIds
  have asked : ∀ item ∈ before.filterMap Step.item?, item ∈ items groups := by
    intro item member
    obtain ⟨g, among, inside⟩ := mem_items_of_mem_before texts emission.steps_eq member
    exact List.mem_flatMap.mpr ⟨g, among, inside⟩
  constructor
  · intro group function principal completed
    have member : Item.permission function principal ∈ before.filterMap Step.item? :=
      List.mem_filterMap.mpr ⟨_, completed, rfl⟩
    rcases exists_fresh_of_mem es.names member with present | ⟨other, among, same⟩
    · exact Or.inl ((Entries.has_text_iff es _).mpr present)
    · obtain ⟨name, named, rfl⟩ := plain_of_mem_items plain (asked _ member)
      obtain ⟨second, rfl, fragments⟩ :=
        permission_of_name_eq plain named (asked _ ((fresh_sublist _ _).subset among)) same
      obtain ⟨previous, here⟩ := mem_linked_of_mem [] among
      rw [same] at here
      exact Or.inr ⟨second, _, fragments, here⟩
  · intro group role failed
    cases rest with
    | nil =>
      rw [emission.complete.mpr rfl] at failed
      cases failed
    | cons step after =>
      rw [emission.fault?_eq texts] at failed
      obtain ⟨g, among, inside⟩ : ∃ g ∈ groups, step ∈ g.steps := by
        apply List.mem_flatMap.mp
        change step ∈ plan groups
        rw [emission.steps_eq]
        simp
      have taken := ResolvedGroup.taken_of_duplicateRole inside failed
      rcases List.mem_append.mp taken with present | named
      · exact Or.inl ((Entries.has_text_iff es _).mpr present)
      · obtain ⟨item, member, same⟩ := List.mem_map.mp named
        rcases exists_fresh_of_mem es.names member with present | ⟨other, among, same'⟩
        · exact Or.inl ((Entries.has_text_iff es _).mpr (same ▸ present))
        · obtain ⟨previous, here⟩ := mem_linked_of_mem [] among
          rw [same', same] at here
          exact Or.inr ⟨_, here, role_of_name_eq plain
            (asked _ ((fresh_sublist _ _).subset among)) (same'.trans same) previous⟩

/-- The name of a permission on a plainly named function tells the function and the fragment of the
principal, and it is the name of no role. So a pass over such functions, whether it succeeds or not, merges
permissions on one function with one fragment only and refuses no role for a permission. -/
theorem permissionName_separates {a b : String} (plain : isPlainName a = true)
    (other : isPlainName b = true) (p q : Principal) (toHost : Bool) (groups : List ResolvedGroup)
    (es : Entries Value) (ids : ∀ g ∈ groups, g.HasPlainIds) :
    (permissionName (logicalId a) p = permissionName (logicalId b) q → a = b ∧ p.name = q.name) ∧
      (∀ role : String, permissionName (logicalId a) p ≠ roleResourceName role) ∧
      ∃ completed rest added, plan groups = completed ++ rest ∧
        ((emit toHost groups ⟨.map es⟩).fault? = none ↔ rest = []) ∧
        (emit toHost groups ⟨.map es⟩).reached.resources = ⟨.map (es ++ Entries.ofNamed added)⟩ ∧
        KindsApart es completed added (emit toHost groups ⟨.map es⟩).fault? := by
  refine ⟨eq_of_permissionName_eq plain other,
    permissionName_ne_roleResourceName_of_plain plain p, ?_⟩
  obtain ⟨completed, rest, emission⟩ := emit_emission toHost groups es
    fun g member => (ids g member).hasTextIds
  exact ⟨completed, rest, _, emission.steps_eq, emission.complete, emission.resources,
    kindsApart_of_emission ids emission⟩

/-- Groups of plainly named functions with principals and roles whose fragments look like the fixed parts of
names. -/
def lookalikeGroups : List ResolvedGroup :=
  [⟨.text "api", .ok [.text (logicalId "lambda"), .text (logicalId "lambda-access_role")],
      .object [("principals", .list [.text "team-a", .text "team:a",
        .text "lambda function permit invoke from x"])],
      .list [.object [("name", .text "lambda function"), ("principals", .text "team-a")],
        .object [("name", .text "lambda:function"), ("principals", .text "team-a")]]⟩]

theorem lookalikeGroups_plain : ∀ g ∈ lookalikeGroups, g.HasPlainIds := by
  intro g member
  rw [List.mem_singleton.mp member]
  exact ⟨["lambda", "lambda-access_role"], by decide, rfl⟩

theorem permissionName_separates_lookalike :
    isPlainName "lambda" = true ∧ (∀ g ∈ lookalikeGroups, g.HasPlainIds) ∧
      permissionName (logicalId "lambda") (.literal "team-a") =
        permissionName (logicalId "lambda") (.literal "team:a") ∧
      (Principal.literal "team-a").name = (Principal.literal "team:a").name ∧
      (emit true lookalikeGroups ⟨.map [(.text "Table", .null)]⟩).fault? =
        some (.config (.duplicateRole (.text "api") (.text "lambda:function"))) ∧
      ∃ completed rest added, plan lookalikeGroups = completed ++ rest ∧
        (emit true lookalikeGroups ⟨.map [(.text "Table", .null)]⟩).reached.resources =
          ⟨.map ([(.text "Table", .null)] ++ Entries.ofNamed added)⟩ ∧
        ∃ resource, ("LambdaAccessRoleLambdaFunction", resource) ∈ added ∧
          Template.isOfType resource "AWS::IAM::Role" = true := by
  have failed : (emit true lookalikeGroups ⟨.map [(.text "Table", .null)]⟩).fault? =
      some (.config (.duplicateRole (.text "api") (.text "lambda:function"))) := rfl
  have same : permissionName (logicalId "lambda") (.literal "team-a") =
      permissionName (logicalId "lambda") (.literal "team:a") := by decide
  obtain ⟨merges, -, completed, rest, added, split, -, resources, apart⟩ :=
    permissionName_separates (a := "lambda") (b := "lambda") (by decide) (by decide)
      (.literal "team-a") (.literal "team:a") true lookalikeGroups [(.text "Table", .null)]
      lookalikeGroups_plain
  refine ⟨by decide, lookalikeGroups_plain, same, (merges same).2, failed, completed, rest, added, split,
    resources, ?_⟩
  rcases apart.refused _ _ failed with present | stands
  · exact absurd present (by decide)
  · exact stands

end AccessGroups

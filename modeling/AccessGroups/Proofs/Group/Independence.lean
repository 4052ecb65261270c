import AccessGroups.Proofs.Group.Build
import AccessGroups.Proofs.Group.Narrowing
import AccessGroups.Proofs.Identifier.Decoding

/-!
Independence of functions. Under the default naming of plain names, what a build adds for one function
depends on the declaration of that function alone: without the other functions the build succeeds, too,
and the function's permissions are the same resources under the same names in the same order.
-/

set_option autoImplicit false

namespace AccessGroups

open Identifier

def PlainNames (functions : Entries Value) : Prop :=
  ∀ function ∈ functions, ∃ name, function.1 = .text name ∧ isPlainName name = true

/-- The declarations of functions without those of all others. -/
def onlyFunction (name : String) (functions : Entries Value) : Entries Value :=
  functions.filter fun function => Value.same function.1 (.text name)

theorem PlainNames.onlyFunction {functions : Entries Value} (plain : PlainNames functions)
    (name : String) : PlainNames (onlyFunction name functions) := by
  intro function member
  exact plain function (List.mem_filter.mp member).1

theorem onlyFunction_idem (name : String) (functions : Entries Value) :
    onlyFunction name (onlyFunction name functions) = onlyFunction name functions := by
  unfold onlyFunction
  rw [List.filter_filter]
  simp only [Bool.and_self]

/-- Plain names are told apart by their logical ids. -/
theorem isFor_logicalId {name other : String} (named : isPlainName name = true)
    (plain : isPlainName other = true) :
    isFor (logicalId name) (.text (logicalId other)) = Value.same (.text other) (.text name) := by
  rw [Bool.eq_iff_iff, isFor, Value.same_text_iff, Value.same_text_iff, Value.text.injEq,
    Value.text.injEq]
  constructor
  · exact logicalId_injective plain named
  · rintro rfl
    rfl

/-- The members of a group that are left without the other functions. -/
theorem memberIds_onlyFunction {functions : Entries Value} (plain : PlainNames functions)
    {name : String} (named : isPlainName name = true) (group : Value) :
    memberIds defaultScheme (onlyFunction name functions) group =
      (memberIds defaultScheme functions group).filter (isFor (logicalId name)) := by
  unfold memberIds onlyFunction
  induction functions with
  | nil => rfl
  | cons function rest ih =>
    obtain ⟨key, declaration⟩ := function
    obtain ⟨other, rfl, plainly⟩ := plain _ List.mem_cons_self
    have later : PlainNames rest := fun next member => plain next (List.mem_cons_of_mem _ member)
    have each : ∀ id ∈ memberships defaultScheme group (.text other, declaration),
        isFor (logicalId name) id = Value.same (.text other) (.text name) := by
      intro id member
      obtain ⟨_, -, rfl⟩ := List.mem_map.mp member
      exact isFor_logicalId named plainly
    rw [List.filter_cons, List.flatMap_cons, List.filter_append, ← ih later]
    by_cases here : Value.same (.text other) (.text name) = true
    · rw [if_pos here, List.flatMap_cons]
      congr 1
      symm
      rw [List.filter_eq_self]
      intro id member
      rw [each id member, here]
    · have gone : (memberships defaultScheme group (.text other, declaration)).filter
          (isFor (logicalId name)) = [] := by
        rw [List.filter_eq_nil_iff]
        intro id member
        rw [each id member]
        exact here
      rw [if_neg here, gone, List.nil_append]

theorem resolvedGroups_onlyFunction (groups : Entries Value) {functions : Entries Value}
    (plain : PlainNames functions) {name : String} (named : isPlainName name = true) :
    (resolvedGroups defaultScheme groups (onlyFunction name functions)).map Prod.snd =
      ((resolvedGroups defaultScheme groups functions).map Prod.snd).map
        (ResolvedGroup.narrow (logicalId name)) := by
  unfold resolvedGroups
  rw [List.map_map, List.map_map, List.map_map]
  apply List.map_congr_left
  intro group _
  simp only [Function.comp_apply, memberIds_onlyFunction plain named]
  simp [ResolvedGroup.enlist, ResolvedGroup.declared, ResolvedGroup.narrow, Except.map]

/-- No other item takes the name of a permission of a plainly named function. -/
theorem names_apart {groups functions : Entries Value} (plain : PlainNames functions)
    {name : String} (named : isPlainName name = true) :
    ∀ item ∈ items ((resolvedGroups defaultScheme groups functions).map Prod.snd),
      item.isPermissionOf (logicalId name) = true →
      ∀ other ∈ items ((resolvedGroups defaultScheme groups functions).map Prod.snd),
        other.isPermissionOf (logicalId name) = false → item.name ≠ other.name := by
  intro item _ permission other member different same
  obtain ⟨principal, rfl⟩ := (Item.isPermissionOf_iff _ item).mp permission
  obtain ⟨g, among, inside⟩ := List.mem_flatMap.mp member
  obtain ⟨group, -, rfl⟩ := mem_resolvedGroups among
  cases other with
  | role role _ _ _ _ => exact permissionName_ne_roleResourceName_of_plain named principal role same
  | permission id otherPrincipal =>
    obtain ⟨joined, -⟩ := ResolvedGroup.permission_mem_items inside
    obtain ⟨function, enrolled, given, -⟩ := (mem_memberIds_iff _ functions group.1 id).mp joined
    obtain ⟨text, key, plainly⟩ := plain function enrolled
    rw [key] at given
    cases given
    obtain ⟨rfl, -⟩ := eq_of_permissionName_eq named plainly same
    simp [Item.isPermissionOf] at different

/-- The permissions that a successful build adds for a function, said of the groups' items alone. -/
theorem build_permissionsOf (toHost : Bool) {groups functions es : Entries Value}
    (distinct : Entries.Distinct groups) (plain : PlainNames functions)
    (succeeded :
      (build defaultScheme toHost (.map groups) (.map functions) ⟨.map es⟩).fault? = none)
    {name : String} (named : isPlainName name = true) :
    ∃ added : List (String × Value),
      (build defaultScheme toHost (.map groups) (.map functions) ⟨.map es⟩).reached.resources =
        ⟨.map (es ++ Entries.ofNamed added)⟩ ∧
      permissionsOf (logicalId name) added = linked [] (fresh es.names
        ((items ((resolvedGroups defaultScheme groups functions).map Prod.snd)).filter
          (Item.isPermissionOf (logicalId name)))) := by
  have texts := resolvedGroups_texts defaultScheme_givesTexts groups functions
  refine ⟨_, build_added defaultScheme_givesTexts toHost distinct succeeded, ?_⟩
  rw [permissionsOf_linked (logicalId name) _ rfl, filter_fresh _ _ (names_apart plain named)]
  intro item member
  exact textual_of_mem_items texts ((fresh_sublist _ _).subset member)

theorem build_onlyFunction_succeeds (toHost : Bool) {groups functions es : Entries Value}
    (distinct : Entries.Distinct groups) (plain : PlainNames functions)
    (succeeded :
      (build defaultScheme toHost (.map groups) (.map functions) ⟨.map es⟩).fault? = none)
    {name : String} (named : isPlainName name = true) :
    (build defaultScheme toHost (.map groups) (.map (onlyFunction name functions))
      ⟨.map es⟩).fault? = none := by
  rw [build_succeeds_iff defaultScheme_givesTexts toHost _ _ distinct] at succeeded ⊢
  obtain ⟨resolved, admitted⟩ := succeeded
  constructor
  · rw [(resolve_spec defaultScheme groups _ distinct).1] at resolved ⊢
    refine ⟨resolved.1, ?_⟩
    intro function member
    exact resolved.2 function (List.mem_filter.mp member).1
  · rw [resolvedGroups_onlyFunction groups plain named]
    exact (plan_narrow (logicalId name) _).admitted _ admitted

/-- Of a build that succeeds, the permissions of a function are those of the build with that function
alone, which succeeds, too; and any other build that succeeds adds the same ones for the function if it
declares the function in the same way. -/
theorem build_independent (toHost : Bool) (groups functions es : Entries Value)
    (distinct : Entries.Distinct groups) (plain : PlainNames functions)
    (succeeded :
      (build defaultScheme toHost (.map groups) (.map functions) ⟨.map es⟩).fault? = none)
    (name : String) (named : isPlainName name = true) :
    (build defaultScheme toHost (.map groups) (.map (onlyFunction name functions))
        ⟨.map es⟩).fault? = none ∧
    ∃ added alone : List (String × Value),
      (build defaultScheme toHost (.map groups) (.map functions) ⟨.map es⟩).reached.resources =
        ⟨.map (es ++ Entries.ofNamed added)⟩ ∧
      (build defaultScheme toHost (.map groups) (.map (onlyFunction name functions))
        ⟨.map es⟩).reached.resources = ⟨.map (es ++ Entries.ofNamed alone)⟩ ∧
      permissionsOf (logicalId name) added = permissionsOf (logicalId name) alone ∧
      ∀ others : Entries Value, PlainNames others →
        onlyFunction name others = onlyFunction name functions →
        (build defaultScheme toHost (.map groups) (.map others) ⟨.map es⟩).fault? = none →
        ∃ more : List (String × Value),
          (build defaultScheme toHost (.map groups) (.map others) ⟨.map es⟩).reached.resources =
            ⟨.map (es ++ Entries.ofNamed more)⟩ ∧
          permissionsOf (logicalId name) more = permissionsOf (logicalId name) added := by
  -- What is added for the function in any of these builds is read off the narrowed groups.
  have alike : ∀ others : Entries Value, PlainNames others →
      onlyFunction name others = onlyFunction name functions →
      (items ((resolvedGroups defaultScheme groups others).map Prod.snd)).filter
          (Item.isPermissionOf (logicalId name)) =
        (items ((resolvedGroups defaultScheme groups functions).map Prod.snd)).filter
          (Item.isPermissionOf (logicalId name)) := by
    intro others plainly same
    rw [← filter_items_narrowed, ← resolvedGroups_onlyFunction groups plainly named, same,
      resolvedGroups_onlyFunction groups plain named, filter_items_narrowed]
  have alone_succeeds := build_onlyFunction_succeeds toHost distinct plain succeeded named
  refine ⟨alone_succeeds, ?_⟩
  obtain ⟨added, resources, permissions⟩ :=
    build_permissionsOf toHost distinct plain succeeded named
  obtain ⟨alone, resources', permissions'⟩ :=
    build_permissionsOf toHost distinct (plain.onlyFunction name) alone_succeeds named
  refine ⟨added, alone, resources, resources', ?_, ?_⟩
  · rw [permissions, permissions',
      alike _ (plain.onlyFunction name) (onlyFunction_idem name functions)]
  · intro others plainly same succeeds
    obtain ⟨more, resources'', permissions''⟩ :=
      build_permissionsOf toHost distinct plainly succeeds named
    exact ⟨more, resources'', by rw [permissions'', permissions, alike others plainly same]⟩

theorem build_independent_declared :
    PlainNames declaredFunctions ∧
      (build defaultScheme true (.map declaredGroups) (.map declaredFunctions)
        ⟨.map [(.text "Table", .null)]⟩).fault? = none ∧
      (build defaultScheme true (.map declaredGroups) (.map (onlyFunction "store_all"
        declaredFunctions)) ⟨.map [(.text "Table", .null)]⟩).fault? = none ∧
      ∃ added alone : List (String × Value),
        (build defaultScheme true (.map declaredGroups) (.map declaredFunctions)
          ⟨.map [(.text "Table", .null)]⟩).reached.resources =
          ⟨.map ([(.text "Table", .null)] ++ Entries.ofNamed added)⟩ ∧
        (build defaultScheme true (.map declaredGroups) (.map (onlyFunction "store_all"
          declaredFunctions)) ⟨.map [(.text "Table", .null)]⟩).reached.resources =
          ⟨.map ([(.text "Table", .null)] ++ Entries.ofNamed alone)⟩ ∧
        permissionsOf (logicalId "store_all") added =
          permissionsOf (logicalId "store_all") alone := by
  have plain : PlainNames declaredFunctions := by
    intro function member
    simp only [declaredFunctions, List.mem_cons, List.not_mem_nil, or_false] at member
    rcases member with rfl | rfl | rfl
    · exact ⟨"load", rfl, by decide⟩
    · exact ⟨"store_all", rfl, by decide⟩
    · exact ⟨"idle", rfl, by decide⟩
  have succeeded : (build defaultScheme true (.map declaredGroups) (.map declaredFunctions)
      ⟨.map [(.text "Table", .null)]⟩).fault? = none := rfl
  obtain ⟨alone_succeeds, added, alone, resources, resources', same, -⟩ :=
    build_independent true declaredGroups declaredFunctions [(.text "Table", .null)]
      declaredGroups_distinct plain succeeded "store_all" (by decide)
  exact ⟨plain, succeeded, alone_succeeds, added, alone, resources, resources', same⟩

end AccessGroups

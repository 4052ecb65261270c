import AccessGroups.Proofs.Group.Resolution

/-!
What stops the resolving of memberships. Where the functions name their groups by texts, they are stopped
only by a group that is not declared or by a function that has no logical id.
-/

set_option autoImplicit false

namespace AccessGroups

/-- A function's declaration that can be read and that names groups by texts, if any. -/
structure JoinsByName (declaration : Value) : Prop where
  mapping : declaration = .null ∨ ∃ es, declaration = .map es
  names : declaration.member "allowAccess" = .null ∨
    (∃ name, declaration.member "allowAccess" = .text name) ∨
    ∃ names : List String, declaration.member "allowAccess" = .list (names.map .text)

namespace JoinsByName

variable {declaration : Value} (joins : JoinsByName declaration)

include joins

theorem requested_eq : Roster.requested declaration = .ok (declaration.member "allowAccess") := by
  unfold Roster.requested
  rcases joins.mapping with rfl | ⟨es, rfl⟩
  · rfl
  · split
    · rfl
    · rename_i empty
      rw [Value.member_of_not_truthy (by simpa using empty)]

theorem exists_text {name : Value} (member : name ∈ (declaration.member "allowAccess").oneOrMany) :
    ∃ text, name = .text text := by
  rcases joins.names with none | ⟨one, given⟩ | ⟨many, given⟩
  · rw [none] at member
    cases member
  · rw [given] at member
    exact ⟨one, List.mem_singleton.mp member⟩
  · rw [given] at member
    obtain ⟨text, -, rfl⟩ := List.mem_map.mp member
    exact ⟨text, rfl⟩

end JoinsByName

/-- What stops the resolving of memberships: a group that is not declared, or a function that asks to join
a group and has no logical id. -/
inductive Unresolved (scheme : Identifier.IdScheme) (functions : Entries Value) : Fault → Prop
  | reference {function : Value × Value} {name : Value} (among : function ∈ functions)
      (names : name ∈ namedGroups function.2) :
      Unresolved scheme functions (.config (.unknownGroup function.1 name))
  | nameless {function : Value × Value} {misuse : Misuse} (among : function ∈ functions)
      (asks : (function.2.member "allowAccess").truthy = true)
      (unnamed : scheme function.1 = .error misuse) : Unresolved scheme functions (.misuse misuse)

namespace Roster

theorem fault_of_join {function id : Value} {r : Roster} {name : String} {fault : Fault}
    (failed : (join function id r (.text name)).fault? = some fault) :
    fault = .config (.unknownGroup function (.text name)) := by
  unfold join at failed
  split at failed
  · rename_i unhashable
    cases unhashable
  · split at failed
    · exact (Option.some.inj failed).symm
    · cases failed

variable {scheme : Identifier.IdScheme} {functions : Entries Value}

theorem fault_of_enrol {r : Roster} {function : Value × Value} (among : function ∈ functions)
    (joins : JoinsByName function.2) {fault : Fault}
    (failed : (enrol scheme r function).fault? = some fault) : Unresolved scheme functions fault := by
  unfold enrol at failed
  rw [joins.requested_eq, Progress.ofExcept_mapError_ok] at failed
  split at failed
  · cases failed
  · rename_i asks
    rw [Bool.not_eq_true, Bool.not_eq_false'] at asks
    cases named : scheme function.1 with
    | error misuse =>
      rw [named] at failed
      cases failed
      exact .nameless among asks named
    | ok id =>
      rw [named] at failed
      refine Progress.walk_faults (fun t name member fault failed => ?_) failed
      obtain ⟨text, rfl⟩ := joins.exists_text member
      rw [fault_of_join failed]
      refine .reference among ?_
      rw [namedGroups, if_pos asks]
      exact member

theorem declare_of_map (r : Roster) {group : Value × Value} {es : Entries Value}
    (mapping : group.2 = .map es) : (r.declare group).fault? = none := by
  unfold declare ResolvedGroup.declare
  rw [mapping]
  split <;> rfl

end Roster

/-- Groups that are mappings can be declared, so what stops the resolving is a function. -/
theorem unresolved_of_fault {scheme : Identifier.IdScheme} {groups functions : Entries Value}
    (declarations : ∀ group ∈ groups, ∃ es, group.2 = .map es)
    (joins : ∀ function ∈ functions, JoinsByName function.2) {fault : Fault}
    (failed : (resolve scheme (.map groups) (.map functions)).fault? = some fault) :
    Unresolved scheme functions fault := by
  rcases Progress.andThen_fault failed with undeclared | ⟨-, unenrolled⟩
  · refine Progress.walk_faults (fun r group member fault failed => ?_) undeclared
    obtain ⟨es, mapping⟩ := declarations group member
    rw [r.declare_of_map mapping] at failed
    cases failed
  · exact Progress.walk_faults
      (fun _ function member _ failed => Roster.fault_of_enrol member (joins function member) failed)
      unenrolled

end AccessGroups

import AccessGroups.Proofs.Template.Reading
import AccessGroups.Group.Membership
import Mathlib.Data.List.Basic

/-!
Resolved memberships. When every function can be enrolled, each declared group lists, function by
function and in order, one copy of the function's logical id for every time that the function names
the group; otherwise nothing is resolved. Names of groups are compared as keys.
-/

set_option autoImplicit false

namespace AccessGroups

def namedGroups (declaration : Value) : List Value :=
  if (declaration.member "allowAccess").truthy then (declaration.member "allowAccess").oneOrMany
  else []

/-- One copy of a function's logical id for every time that it names the group. -/
def memberships (scheme : Identifier.IdScheme) (group : Value) (function : Value × Value) :
    List Value :=
  match scheme function.1 with
  | .ok id => ((namedGroups function.2).filter (Value.same group ·)).map fun _ => id
  | .error _ => []

/-- The logical ids of the functions that name a group, in the order of the functions. -/
def memberIds (scheme : Identifier.IdScheme) (functions : Entries Value) (group : Value) :
    List Value :=
  functions.flatMap (memberships scheme group)

/-- A function whose declaration can be read and which names only groups that there are. -/
def Enrollable (scheme : Identifier.IdScheme) (groups : List Value) (function : Value × Value) :
    Prop :=
  (∃ wanted, Roster.requested function.2 = .ok wanted) ∧
    ((function.2.member "allowAccess").truthy = true →
      (∃ id, scheme function.1 = .ok id) ∧
      ∀ name ∈ namedGroups function.2, name.hashable = true ∧
        ∃ group ∈ groups, Value.same group name = true)

namespace ResolvedGroup

def enlist (g : ResolvedGroup) (ids : List Value) : ResolvedGroup :=
  { g with functions := g.functions.map (· ++ ids) }

@[simp] theorem enlist_nil (g : ResolvedGroup) : g.enlist [] = g := by
  obtain ⟨name, functions, policy, role⟩ := g
  cases functions <;> simp [enlist, Except.map]

@[simp] theorem enlist_enlist (g : ResolvedGroup) (first second : List Value) :
    (g.enlist first).enlist second = g.enlist (first ++ second) := by
  obtain ⟨name, functions, policy, role⟩ := g
  cases functions <;> simp [enlist, Except.map]

/-- A group as it is declared, before anyone has joined it. -/
def declared (name declaration : Value) : ResolvedGroup :=
  ⟨name, .ok [], declaration.member "policy", declaration.member "role"⟩

theorem eq_declared_of_declare {name declaration : Value} {g : ResolvedGroup}
    (read : declare name declaration = .ok g) : g = declared name declaration := by
  unfold declare at read
  by_cases given : declaration.truthy = true
  · simp only [given, ↓reduceIte] at read
    cases policy : declaration.field "policy" with
    | error misuse => simp [policy, bind, Except.bind] at read
    | ok p =>
      cases role : declaration.field "role" with
      | error misuse => simp [policy, role, bind, Except.bind] at read
      | ok r =>
        simp only [policy, role, bind, Except.bind, pure, Except.pure, Except.ok.injEq] at read
        rw [← read, Value.eq_member_of_field policy, Value.eq_member_of_field role]
        rfl
  · simp only [given, Bool.false_eq_true, ↓reduceIte, pure, Except.pure, Except.ok.injEq] at read
    rw [Bool.not_eq_true] at given
    rw [← read, declared, Value.member_of_not_truthy given, Value.member_of_not_truthy given]

end ResolvedGroup

namespace Roster

theorem eq_member_of_requested {declaration wanted : Value}
    (read : requested declaration = .ok wanted) : wanted = declaration.member "allowAccess" := by
  unfold requested at read
  split at read
  · exact Value.eq_member_of_field read
  · rename_i falsy
    rw [Bool.not_eq_true] at falsy
    cases read
    exact (Value.member_of_not_truthy falsy "allowAccess").symm

/-- The groups of a roster after more ids are listed, group by group. -/
def enlisted (groups : Entries ResolvedGroup) (ids : Value → List Value) : Entries ResolvedGroup :=
  groups.map fun e => (e.1, e.2.enlist (ids e.1))

theorem keys_enlisted (groups : Entries ResolvedGroup) (ids : Value → List Value) :
    Entries.keys (enlisted groups ids) = Entries.keys groups := by
  simp [enlisted, Entries.keys]

theorem enlisted_enlisted (groups : Entries ResolvedGroup) (first second : Value → List Value) :
    enlisted (enlisted groups first) second = enlisted groups fun k => first k ++ second k := by
  simp [enlisted]

theorem enlisted_nothing (groups : Entries ResolvedGroup) : enlisted groups (fun _ => []) = groups := by
  simp [enlisted]

theorem distinct_enlisted {groups : Entries ResolvedGroup} (distinct : Entries.Distinct groups)
    (ids : Value → List Value) : Entries.Distinct (enlisted groups ids) :=
  distinct.map fun e => e.2.enlist (ids e.1)

/-- One function joins one group: it does when there is such a group. -/
theorem join_spec (function id : Value) (r : Roster) (distinct : Entries.Distinct r.groups)
    (name : Value) :
    ((join function id r name).fault? = none ↔
      name.hashable = true ∧ ∃ group ∈ Entries.keys r.groups, Value.same group name = true) ∧
    ((join function id r name).fault? = none →
      (join function id r name).reached.groups =
        enlisted r.groups fun k => ([name].filter (Value.same k ·)).map fun _ => id) := by
  unfold join
  by_cases hashable : name.hashable = true
  · simp only [hashable, Bool.not_true, Bool.false_eq_true, ↓reduceIte, true_and]
    cases found : Entries.get? r.groups name with
    | none =>
      have absent := (Entries.get?_eq_none_iff r.groups name).mp found
      simp only [Progress.stop, reduceCtorEq, false_iff, not_exists, not_and, Bool.not_eq_true,
        false_implies, and_true]
      intro group member
      obtain ⟨e, among, rfl⟩ := List.mem_map.mp member
      exact absent e among
    | some g =>
      obtain ⟨k, member, same⟩ := Entries.mem_of_get?_eq_some found
      simp only [Progress.done, true_iff, forall_const]
      refine ⟨⟨k, List.mem_map.mpr ⟨_, member, rfl⟩, same⟩, ?_⟩
      rw [Entries.put_eq_map distinct (fun g => g.join id) hashable found]
      apply List.map_congr_left
      intro e _
      by_cases here : Value.same e.1 name = true
      · simp only [here, ↓reduceIte, List.filter_cons_of_pos, List.filter_nil, List.map_cons,
          List.map_nil]
        rfl
      · simp only [here, Bool.false_eq_true, ↓reduceIte, not_false_eq_true,
          List.filter_cons_of_neg, List.filter_nil, List.map_nil, ResolvedGroup.enlist_nil]
  · simp [hashable, Progress.stop]

theorem walk_join_spec (function id : Value) (names : List Value) (r : Roster)
    (distinct : Entries.Distinct r.groups) :
    ((Progress.walk (join function id) r names).fault? = none ↔
      ∀ name ∈ names, name.hashable = true ∧
        ∃ group ∈ Entries.keys r.groups, Value.same group name = true) ∧
    ((Progress.walk (join function id) r names).fault? = none →
      (Progress.walk (join function id) r names).reached.groups =
        enlisted r.groups fun k => (names.filter (Value.same k ·)).map fun _ => id) := by
  induction names generalizing r with
  | nil =>
    refine ⟨by simp [Progress.done], fun _ => ?_⟩
    simp [Progress.done, enlisted_nothing]
  | cons name rest ih =>
    obtain ⟨possible, effect⟩ := join_spec function id r distinct name
    rw [Progress.walk_cons, Progress.andThen_fault?_eq_none_iff]
    by_cases ok : (join function id r name).fault? = none
    · have after := effect ok
      obtain ⟨others, rest_effect⟩ := ih (join function id r name).reached
        (by rw [after]; exact distinct_enlisted distinct _)
      rw [after, keys_enlisted] at others
      refine ⟨?_, ?_⟩
      · rw [others, List.forall_mem_cons, ← possible]
      · rintro ⟨-, later⟩
        rw [Progress.andThen_of_ok _ ok, rest_effect later, after, enlisted_enlisted]
        congr 1
        funext k
        rw [← List.map_append, ← List.filter_append, List.singleton_append]
    · refine ⟨?_, fun both => absurd both.1 ok⟩
      rw [List.forall_mem_cons, ← possible]
      simp [ok]

/-- A function that can be enrolled joins the groups that it names, and another one stops the run. -/
theorem enrol_spec (scheme : Identifier.IdScheme) (r : Roster)
    (distinct : Entries.Distinct r.groups) (function : Value × Value) :
    ((enrol scheme r function).fault? = none ↔
      Enrollable scheme (Entries.keys r.groups) function) ∧
    ((enrol scheme r function).fault? = none →
      (enrol scheme r function).reached.groups =
        enlisted r.groups fun k => memberships scheme k function) := by
  unfold enrol Enrollable
  cases read : requested function.2 with
  | error misuse => simp [Progress.stop]
  | ok wanted =>
    have same := eq_member_of_requested read
    subst same
    simp only [Progress.ofExcept_mapError_ok, Except.ok.injEq, exists_eq', true_and]
    by_cases asks : (function.2.member "allowAccess").truthy = true
    · cases named : scheme function.1 with
      | error misuse => simp [asks, Progress.stop]
      | ok id =>
        have joined := walk_join_spec function.1 id (namedGroups function.2)
          { r with asked := r.asked ++ [function.1] } distinct
        simpa [asks, namedGroups, memberships, named] using joined
    · have nothing : (fun k => memberships scheme k function) = fun _ => [] := by
        funext k
        unfold memberships namedGroups
        cases scheme function.1 <;> simp [asks]
      rw [nothing, enlisted_nothing]
      simp [asks, Progress.done]

theorem walk_enrol_spec (scheme : Identifier.IdScheme) (functions : Entries Value) (r : Roster)
    (distinct : Entries.Distinct r.groups) :
    ((Progress.walk (enrol scheme) r functions).fault? = none ↔
      ∀ function ∈ functions, Enrollable scheme (Entries.keys r.groups) function) ∧
    ((Progress.walk (enrol scheme) r functions).fault? = none →
      (Progress.walk (enrol scheme) r functions).reached.groups =
        enlisted r.groups fun k => memberIds scheme functions k) := by
  induction functions generalizing r with
  | nil =>
    refine ⟨by simp [Progress.done], fun _ => ?_⟩
    simp [Progress.done, memberIds, enlisted_nothing]
  | cons function rest ih =>
    obtain ⟨possible, effect⟩ := enrol_spec scheme r distinct function
    rw [Progress.walk_cons, Progress.andThen_fault?_eq_none_iff]
    by_cases ok : (enrol scheme r function).fault? = none
    · have after := effect ok
      obtain ⟨others, rest_effect⟩ := ih (enrol scheme r function).reached
        (by rw [after]; exact distinct_enlisted distinct _)
      rw [after, keys_enlisted] at others
      refine ⟨?_, ?_⟩
      · rw [others, List.forall_mem_cons, ← possible]
      · rintro ⟨-, later⟩
        rw [Progress.andThen_of_ok _ ok, rest_effect later, after, enlisted_enlisted]
        rfl
    · refine ⟨?_, fun both => absurd both.1 ok⟩
      rw [List.forall_mem_cons, ← possible]
      simp [ok]

theorem declare_spec (r : Roster) (group : Value × Value) :
    (r.declare group).fault? = none →
      (r.declare group).reached.groups =
        Entries.put r.groups group.1 (ResolvedGroup.declared group.1 group.2) := by
  unfold declare
  cases read : ResolvedGroup.declare group.1 group.2 with
  | error misuse => simp [Progress.stop]
  | ok g =>
    intro _
    rw [← ResolvedGroup.eq_declared_of_declare read]
    rfl

/-- Groups are declared one after another, each under its own name. -/
theorem walk_declare_groups (groups : Entries Value) (r : Roster)
    (distinct : Entries.Distinct (r.groups ++ groups.map fun e =>
      (e.1, ResolvedGroup.declared e.1 e.2)))
    (ok : (Progress.walk declare r groups).fault? = none) :
    (Progress.walk declare r groups).reached.groups =
      r.groups ++ groups.map fun e => (e.1, ResolvedGroup.declared e.1 e.2) := by
  induction groups generalizing r with
  | nil => simp [Progress.done]
  | cons group rest ih =>
    rw [Progress.walk_cons, Progress.andThen_fault?_eq_none_iff] at ok
    have apart := (List.pairwise_append.mp distinct).2.2
    have added : (r.declare group).reached.groups =
        r.groups ++ [(group.1, ResolvedGroup.declared group.1 group.2)] := by
      rw [declare_spec r group ok.1, Entries.put_of_get?_eq_none]
      rw [Entries.get?_eq_none_iff]
      intro e member
      exact apart e member _ List.mem_cons_self
    rw [Progress.walk_cons, Progress.andThen_of_ok _ ok.1, ih _ _ ok.2, added]
    · simp
    · rw [added]
      simpa using distinct

end Roster

def resolvedGroups (scheme : Identifier.IdScheme) (groups functions : Entries Value) :
    Entries ResolvedGroup :=
  groups.map fun e => (e.1, (ResolvedGroup.declared e.1 e.2).enlist (memberIds scheme functions e.1))

/-- Groups are declared first, and then the functions are enrolled. -/
theorem resolve_map (scheme : Identifier.IdScheme) (groups functions : Entries Value) :
    resolve scheme (.map groups) (.map functions) =
      (Progress.walk Roster.declare Roster.empty groups).andThen fun r =>
        Progress.walk (Roster.enrol scheme) r functions := rfl

/-- Resolving the memberships of functions in groups succeeds when the groups can be declared and the
functions enrolled, and then every group lists the functions that name it. -/
theorem resolve_spec (scheme : Identifier.IdScheme) (groups functions : Entries Value)
    (distinct : Entries.Distinct groups) :
    ((resolve scheme (.map groups) (.map functions)).fault? = none ↔
      (Progress.walk Roster.declare Roster.empty groups).fault? = none ∧
      ∀ function ∈ functions, Enrollable scheme (Entries.keys groups) function) ∧
    ((resolve scheme (.map groups) (.map functions)).fault? = none →
      (resolve scheme (.map groups) (.map functions)).reached.groups =
        resolvedGroups scheme groups functions) := by
  rw [resolve_map, Progress.andThen_fault?_eq_none_iff]
  by_cases ok : (Progress.walk Roster.declare Roster.empty groups).fault? = none
  · have all := distinct.map fun e => ResolvedGroup.declared e.1 e.2
    have declared := Roster.walk_declare_groups groups Roster.empty all ok
    obtain ⟨possible, effect⟩ := Roster.walk_enrol_spec scheme functions
      (Progress.walk Roster.declare Roster.empty groups).reached
      (by rw [declared]; exact all)
    have keys : Entries.keys (Progress.walk Roster.declare Roster.empty groups).reached.groups =
        Entries.keys groups := by
      rw [declared, Entries.keys, Entries.keys, List.map_append, List.map_map]
      rfl
    refine ⟨by rw [possible, keys], ?_⟩
    rintro ⟨-, enrolled⟩
    rw [Progress.andThen_of_ok _ ok, effect enrolled, declared]
    simp [Roster.enlisted, resolvedGroups, Roster.empty]
  · exact ⟨by simp [ok], fun both => absurd both.1 ok⟩

namespace Roster

def All (holds : ResolvedGroup → Prop) (r : Roster) : Prop := ∀ e ∈ r.groups, holds e.2

variable {holds : ResolvedGroup → Prop} {r : Roster}

theorem declare_all {group : Value × Value} (kept : r.All holds)
    (declared : holds (.declared group.1 group.2)) : (r.declare group).reached.All holds := by
  unfold declare
  cases read : ResolvedGroup.declare group.1 group.2 with
  | error misuse => exact kept
  | ok g =>
    intro e member
    rcases Entries.mem_of_mem_put member with member | same
    · exact kept e member
    · rw [same, ResolvedGroup.eq_declared_of_declare read]
      exact declared

theorem join_all (function : Value) {functionId : Value} (group : Value) (kept : r.All holds)
    (joined : ∀ g, holds g → holds (g.join functionId)) :
    (join function functionId r group).reached.All holds := by
  unfold join
  split
  · exact kept
  · split
    · exact kept
    · rename_i resolved found
      intro e member
      rcases Entries.mem_of_mem_put member with member | same
      · exact kept e member
      · obtain ⟨key, listed, -⟩ := Entries.mem_of_get?_eq_some found
        rw [same]
        exact joined resolved (kept (key, resolved) listed)

theorem enrol_all (scheme : Identifier.IdScheme) {function : Value × Value} (kept : r.All holds)
    (joined : ∀ id, scheme function.1 = .ok id → ∀ g, holds g → holds (g.join id)) :
    (r.enrol scheme function).reached.All holds := by
  unfold enrol
  cases requested function.2 with
  | error misuse => exact kept
  | ok wanted =>
    rw [Progress.ofExcept_mapError_ok]
    split
    · exact kept
    · cases named : scheme function.1 with
      | error misuse => exact kept
      | ok functionId =>
        exact Progress.walk_keeps
          (fun _ group _ kept => join_all function.1 group kept (joined functionId named)) kept

end Roster

/-- What is true of the groups as they are declared, and stays true when a function joins, is true of all
groups of the roster, whether the memberships are resolved or not. -/
theorem resolve_all {holds : ResolvedGroup → Prop} (scheme : Identifier.IdScheme)
    {groups : Entries Value} {functions : Value}
    (declared : ∀ group ∈ groups, holds (.declared group.1 group.2))
    (joined : ∀ listed, functions.entries = .ok listed → ∀ function ∈ listed, ∀ id,
      scheme function.1 = .ok id → ∀ g, holds g → holds (g.join id)) :
    (resolve scheme (.map groups) functions).reached.All holds := by
  have start : (Progress.walk Roster.declare Roster.empty groups).reached.All holds :=
    Progress.walk_keeps (fun _ group among kept => Roster.declare_all kept (declared group among))
      (by intro e member; cases member)
  refine Progress.andThen_keeps start fun r kept => ?_
  cases listed : functions.entries with
  | error misuse => exact kept
  | ok functions =>
    exact Progress.walk_keeps (fun _ function among kept =>
      Roster.enrol_all scheme kept (joined functions listed function among)) kept

/-- Every group of the roster carries the name, the policy and the role of a declared one. -/
def Roster.Carries (groups : Entries Value) (r : Roster) : Prop :=
  ∀ e ∈ r.groups, ∃ group ∈ groups, e.2.name = group.1 ∧ e.2.policy = group.2.member "policy" ∧
    e.2.role = group.2.member "role"

/-- Resolving memberships, whether it succeeds or not, carries the declarations along unchanged. -/
theorem resolve_carries (scheme : Identifier.IdScheme) (groups : Entries Value) (functions : Value) :
    (resolve scheme (.map groups) functions).reached.Carries groups :=
  @resolve_all (fun g => ∃ group ∈ groups, g.name = group.1 ∧ g.policy = group.2.member "policy" ∧
      g.role = group.2.member "role") scheme groups functions
    (fun group among => ⟨group, among, rfl, rfl, rfl⟩) fun _ _ _ _ _ _ _ carried => carried

/-- Whoever is listed for a group has a declaration that names it. -/
theorem mem_memberIds_iff (scheme : Identifier.IdScheme) (functions : Entries Value)
    (group id : Value) :
    id ∈ memberIds scheme functions group ↔
      ∃ function ∈ functions, scheme function.1 = .ok id ∧
        ∃ name ∈ namedGroups function.2, Value.same group name = true := by
  unfold memberIds
  rw [List.mem_flatMap]
  constructor
  · rintro ⟨function, among, listed⟩
    unfold memberships at listed
    split at listed
    · rename_i given named
      obtain ⟨name, member, rfl⟩ := List.mem_map.mp listed
      exact ⟨function, among, named, name, List.mem_filter.mp member⟩
    · cases listed
  · rintro ⟨function, among, named, name, member, same⟩
    refine ⟨function, among, ?_⟩
    simp only [memberships, named]
    exact List.mem_map.mpr ⟨name, List.mem_filter.mpr ⟨member, same⟩, rfl⟩

theorem truthy_of_mem_namedGroups {declaration name : Value} (member : name ∈ namedGroups declaration) :
    (declaration.member "allowAccess").truthy = true := by
  unfold namedGroups at member
  split at member
  · assumption
  · cases member

theorem mem_resolvedGroups {scheme : Identifier.IdScheme} {groups functions : Entries Value}
    {g : ResolvedGroup} (member : g ∈ (resolvedGroups scheme groups functions).map Prod.snd) :
    ∃ group ∈ groups, g = ⟨group.1, .ok (memberIds scheme functions group.1),
      group.2.member "policy", group.2.member "role"⟩ := by
  unfold resolvedGroups at member
  rw [List.map_map] at member
  obtain ⟨group, among, rfl⟩ := List.mem_map.mp member
  exact ⟨group, among, by simp [ResolvedGroup.enlist, ResolvedGroup.declared, Except.map]⟩

end AccessGroups

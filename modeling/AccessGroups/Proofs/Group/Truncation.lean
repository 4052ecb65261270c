import AccessGroups.Proofs.Group.Growth
import AccessGroups.Proofs.Group.Request

/-!
Truncated input. A pass that fails has done exactly what a pass does over the input that ends just
before the policy, the principal or the directive at fault, and that pass succeeds. So a failure leaves
the work of everything before it and nothing of what it is about.
-/

set_option autoImplicit false

namespace AccessGroups

/-- A place in a concatenation lies in one of its parts, after all parts before that one. -/
theorem exists_part_of_flatMap {α β : Type} {f : α → List β} {xs : List α} {before after : List β}
    {b : β} (split : xs.flatMap f = before ++ b :: after) :
    ∃ earlier x later front back, xs = earlier ++ x :: later ∧ f x = front ++ b :: back ∧
      before = earlier.flatMap f ++ front := by
  induction xs generalizing before with
  | nil => simp at split
  | cons x rest ih =>
    rw [List.flatMap_cons, List.append_eq_append_iff] at split
    rcases split with ⟨more, rfl, later⟩ | ⟨back, here, tail⟩
    · obtain ⟨earlier, y, others, front, back, rfl, inside, rfl⟩ := ih later
      exact ⟨x :: earlier, y, others, front, back, rfl, inside, by simp⟩
    · cases back with
      | nil =>
        have later : rest.flatMap f = [] ++ b :: after := tail.symm
        obtain ⟨earlier, y, others, front, back, rfl, inside, nothing⟩ := ih later
        refine ⟨x :: earlier, y, others, front, back, rfl, inside, ?_⟩
        rw [List.append_nil] at here
        rw [List.flatMap_cons, List.append_assoc, ← nothing, here, List.append_nil]
      | cons c back =>
        obtain ⟨rfl, -⟩ := List.cons.inj tail
        exact ⟨[], x, rest, before, back, rfl, here, rfl⟩

namespace ResolvedGroup

def withPrincipals (policy : Value) (principals : List Value) : Value :=
  match policy with
  | .map es => .map (Entries.put es (.text "principals") (.list principals))
  | v => v

theorem member_withPrincipals {policy : Value} (given : (policy.member "principals").isNull = false)
    (principals : List Value) :
    (withPrincipals policy principals).member "principals" = .list principals := by
  cases policy with
  | map es => simp [withPrincipals, Value.member, Entries.get?_put_text]
  | _ => cases given

/-- A group that ends just before its policy, before a principal of its policy or before a directive;
`offence` is what the group asks for there. -/
inductive CutBefore (g : ResolvedGroup) : (offence : Step) → (cut : ResolvedGroup) → Prop
  | policy (given : g.policy.isNull = false)
    (missing : (g.policy.member "principals").isNull = true) :
    CutBefore g (.refuse (.config (.policyWithoutPrincipals g.name)))
      { g with policy := .null, role := .null }
  | principal {before after : List Value} {raw : Value} {fault : ConfigFault}
    (listed : g.policyPrincipals = before ++ raw :: after)
    (unreadable : Principal.ofValue raw = .error fault) :
    CutBefore g (.refuse (.config fault))
      { g with policy := withPrincipals g.policy before, role := .null }
  | directive {before after : List Value} {directive : Value}
    (listed : g.role.oneOrMany = before ++ directive :: after) :
    CutBefore g (g.roleStep directive) { g with role := .list before }

theorem CutBefore.functions_eq {g cut : ResolvedGroup} {offence : Step}
    (ends : g.CutBefore offence cut) : cut.functions = g.functions := by
  cases ends <;> rfl

section Offence

variable {g : ResolvedGroup} {functions : List Value} {front back : List Step} {offence : Step}
  (members : g.functions = .ok functions)
  (other : ∀ group function principal, offence ≠ .permission group function principal)

include members other

/-- What stops a pass at a principal is that the principal cannot be read, before any permission on it
was asked for. -/
theorem unreadable_of_principalSteps {raw : Value}
    (split : g.principalSteps raw = front ++ offence :: back) :
    ∃ fault, Principal.ofValue raw = .error fault ∧ offence = .refuse (.config fault) ∧
      front = [] := by
  unfold principalSteps at split
  cases read : Principal.ofValue raw with
  | ok principal =>
    simp only [read, members] at split
    have member : offence ∈ functions.map fun f => .permission g.name f principal := by
      rw [split]
      simp
    obtain ⟨function, -, same⟩ := List.mem_map.mp member
    exact absurd same.symm (other _ _ _)
  | error fault =>
    simp only [read] at split
    rcases List.append_eq_singleton_iff.mp split.symm with ⟨rfl, same⟩ | ⟨-, none⟩
    · exact ⟨fault, rfl, (List.cons.inj same).1, rfl⟩
    · cases none

theorem cutBefore_of_policySteps (split : g.policySteps = front ++ offence :: back) :
    ∃ cut, g.CutBefore offence cut ∧ cut.policySteps = front ∧ cut.roleSteps = [] := by
  cases given : g.policy.isNull with
  | true => simp [policySteps_of_null given] at split
  | false =>
    cases present : (g.policy.member "principals").isNull with
    | true =>
      rw [policySteps_of_missing given present] at split
      rcases List.append_eq_singleton_iff.mp split.symm with ⟨rfl, same⟩ | ⟨-, none⟩
      · rw [(List.cons.inj same).1]
        exact ⟨_, .policy given present, policySteps_of_null rfl, rfl⟩
      · cases none
    | false =>
      rw [policySteps_of_principals present] at split
      obtain ⟨before, raw, after, inner, outer, listed, here, rfl⟩ := exists_part_of_flatMap split
      obtain ⟨fault, unreadable, rfl, rfl⟩ := unreadable_of_principalSteps members other here
      have principals := member_withPrincipals present before
      refine ⟨_, .principal listed unreadable, ?_, rfl⟩
      rw [policySteps_of_principals (by rw [principals]; rfl), policyPrincipals, principals,
        List.append_nil]
      rfl

end Offence

theorem cutBefore_of_roleSteps {g : ResolvedGroup} {front back : List Step} {offence : Step}
    (split : g.roleSteps = front ++ offence :: back) :
    ∃ cut, g.CutBefore offence cut ∧ cut.policySteps = g.policySteps ∧ cut.roleSteps = front := by
  obtain ⟨before, others, listed, rfl, rest⟩ := List.map_eq_append_iff.mp split
  obtain ⟨directive, after, rfl, rfl, -⟩ := List.map_eq_cons_iff.mp rest
  exact ⟨_, .directive listed, rfl, rfl⟩

/-- Wherever a pass is stopped inside a group, the group can be cut off there. -/
theorem cutBefore_of_steps {g : ResolvedGroup} {functions : List Value}
    (members : g.functions = .ok functions) (used : g.isUsed = true) {front back : List Step}
    {offence : Step}
    (other : ∀ group function principal, offence ≠ .permission group function principal)
    (split : g.steps = front ++ offence :: back) :
    ∃ cut, g.CutBefore offence cut ∧ cut.steps = front := by
  have whole : ∀ cut : ResolvedGroup, cut.functions = g.functions →
      cut.steps = cut.policySteps ++ cut.roleSteps := by
    intro cut same
    have still : cut.isUsed = true := by rw [isUsed, same, ← isUsed, used]
    simp only [steps, still, ↓reduceIte]
  rw [whole g rfl, List.append_eq_append_iff] at split
  rcases split with ⟨more, rfl, late⟩ | ⟨rest, early, tail⟩
  · obtain ⟨cut, ends, policy, roles⟩ := cutBefore_of_roleSteps late
    exact ⟨cut, ends, by rw [whole cut ends.functions_eq, policy, roles]⟩
  · cases rest with
    | nil =>
      rw [List.append_nil] at early
      have late : g.roleSteps = [] ++ offence :: back := tail.symm
      obtain ⟨cut, ends, policy, roles⟩ := cutBefore_of_roleSteps late
      exact ⟨cut, ends, by rw [whole cut ends.functions_eq, policy, roles, early, List.append_nil]⟩
    | cons next rest =>
      obtain ⟨rfl, -⟩ := List.cons.inj tail
      obtain ⟨cut, ends, policy, roles⟩ := cutBefore_of_policySteps members other early
      exact ⟨cut, ends, by rw [whole cut ends.functions_eq, policy, roles, List.append_nil]⟩

end ResolvedGroup

theorem ne_permission_of_stopped {toHost : Bool} {p : Pass} {es : Entries Value} {step : Step}
    (stands : p.resources = ⟨.map es⟩) (textual : step.Textual)
    (stopped : (p.take toHost step).fault? ≠ none) (group function : Value) (principal : Principal) :
    step ≠ .permission group function principal := by
  rintro rfl
  cases Pass.take_effect toHost p es stands _ textual with
  | stopped refused => exact refused trivial
  | skipped _ ok => exact stopped ok
  | added _ _ ok => exact stopped ok

theorem used_of_stopped {toHost : Bool} {p : Pass} {g : ResolvedGroup} {front back : List Step}
    {offence : Step} (split : g.steps = front ++ offence :: back)
    (stopped : (p.take toHost offence).fault? ≠ none) : g.isUsed = true := by
  by_contra unused
  simp only [ResolvedGroup.steps, unused, ↓reduceIte] at split
  have only : offence = .unused g.name := by
    have member : offence ∈ [Step.unused g.name] := by
      rw [split]
      simp
    exact List.mem_singleton.mp member
  rw [only] at stopped
  exact stopped rfl

theorem plan_append_singleton (groups : List ResolvedGroup) (g : ResolvedGroup) :
    plan (groups ++ [g]) = plan groups ++ g.steps := by
  simp [plan]

/-- A pass over a mapping that fails ends where the pass over the input before the offence ends, which
succeeds, and the offence is what that pass cannot take. So it leaves the entries that were there and,
after them, the resources of everything before the offence. -/
theorem emit_truncated (toHost : Bool) (groups : List ResolvedGroup) (es : Entries Value)
    (texts : ∀ g ∈ groups, g.HasTextIds) (fault : Fault)
    (failed : (emit toHost groups ⟨.map es⟩).fault? = some fault) :
    ∃ earlier g later offence cut, groups = earlier ++ g :: later ∧ g.isUsed = true ∧
      g.CutBefore offence cut ∧
      (emit toHost (earlier ++ [cut]) ⟨.map es⟩).fault? = none ∧
      ((emit toHost (earlier ++ [cut]) ⟨.map es⟩).reached.take toHost offence).fault? = some fault ∧
      (emit toHost groups ⟨.map es⟩).reached = (emit toHost (earlier ++ [cut]) ⟨.map es⟩).reached ∧
      (emit toHost groups ⟨.map es⟩).reached.resources =
        ⟨.map (es ++ Entries.ofNamed (linked [] (fresh es.names (items (earlier ++ [cut])))))⟩ := by
  have walked : emit toHost groups ⟨.map es⟩ =
      Progress.walk (Pass.take toHost) (Pass.start ⟨.map es⟩) (plan groups) := rfl
  obtain ⟨before, offence, after, planned, taken, last⟩ :=
    Progress.walk_stopped (by rw [← walked, failed]; simp)
  rw [← walked] at last
  have textual : ∀ step ∈ plan groups, step.Textual := fun _ => textual_of_mem_plan texts
  -- The pass over what comes before the offence stands over a mapping.
  obtain ⟨_, _, reached⟩ := walk_emission toHost before (Pass.start ⟨.map es⟩) es rfl
    fun step member => textual step (by rw [planned]; exact List.mem_append_left _ member)
  have stopped := last ▸ failed
  have other := ne_permission_of_stopped reached.resources
    (textual offence (by rw [planned]; simp)) (by rw [stopped]; simp)
  obtain ⟨earlier, g, later, front, back, rfl, here, rfl⟩ := exists_part_of_flatMap planned
  have used : g.isUsed = true := used_of_stopped here (by rw [stopped]; simp)
  have members := (texts g (by simp)).ids_eq.1
  obtain ⟨cut, ends, cutSteps⟩ := ResolvedGroup.cutBefore_of_steps members used other here
  have truncated : emit toHost (earlier ++ [cut]) ⟨.map es⟩ =
      Progress.walk (Pass.take toHost) (Pass.start ⟨.map es⟩)
        (earlier.flatMap ResolvedGroup.steps ++ front) := by
    rw [emit, plan_append_singleton, cutSteps]
    rfl
  rw [← truncated] at taken last stopped
  have named : ∀ other ∈ earlier ++ [cut], other.HasTextIds := by
    intro other member
    rcases List.mem_append.mp member with before | here
    · exact texts other (List.mem_append_left _ before)
    · rw [List.mem_singleton.mp here, ResolvedGroup.HasTextIds, ends.functions_eq]
      exact texts g (by simp)
  have left : (emit toHost (earlier ++ g :: later) ⟨.map es⟩).reached =
      (emit toHost (earlier ++ [cut]) ⟨.map es⟩).reached := by
    rw [last]
    exact Pass.reached_of_stopped (by rw [stopped]; simp)
  exact ⟨earlier, g, later, offence, cut, rfl, used, ends, taken, stopped, left,
    by rw [left, emit_added toHost es named taken]⟩

/-- The sharing groups, and after them one with a principal that cannot be read and one more. -/
def spoiledGroups : List ResolvedGroup :=
  sharingGroups ++
    [⟨.text "guests", .ok [.text "G", .text "H"],
        .object [("principals", .list [.text "444444444444", .bool true, .text "555555555555"])],
        .object [("name", .text "guests"), ("principals", .text "444444444444")]⟩,
      ⟨.text "late", .ok [.text "H"], .object [("principals", .int 666666666666)], .null⟩]

theorem spoiledGroups_texts : ∀ g ∈ spoiledGroups, g.HasTextIds := by
  intro g member
  rcases List.mem_append.mp member with sharing | spoiled
  · exact sharingGroups_texts g sharing
  · simp only [List.mem_cons, List.not_mem_nil, or_false] at spoiled
    rcases spoiled with rfl | rfl
    · exact ⟨["G", "H"], rfl⟩
    · exact ⟨["H"], rfl⟩

theorem emit_truncated_spoiled :
    (∀ g ∈ spoiledGroups, g.HasTextIds) ∧
      (emit true spoiledGroups ⟨.map [(.text "Table", .null)]⟩).fault? =
        some (.config (.badPrincipal (.bool true))) ∧
      ∃ earlier g later offence cut, spoiledGroups = earlier ++ g :: later ∧
        g.CutBefore offence cut ∧
        (emit true (earlier ++ [cut]) ⟨.map [(.text "Table", .null)]⟩).fault? = none ∧
        (emit true spoiledGroups ⟨.map [(.text "Table", .null)]⟩).reached.resources =
          ⟨.map ([(.text "Table", .null)] ++ Entries.ofNamed
            (linked [] (fresh ["Table"] (items (earlier ++ [cut])))))⟩ := by
  have failed : (emit true spoiledGroups ⟨.map [(.text "Table", .null)]⟩).fault? =
      some (.config (.badPrincipal (.bool true))) := rfl
  obtain ⟨earlier, g, later, offence, cut, split, -, ends, taken, -, -, resources⟩ :=
    emit_truncated true spoiledGroups [(.text "Table", .null)] spoiledGroups_texts _ failed
  exact ⟨spoiledGroups_texts, failed, earlier, g, later, offence, cut, split, ends, taken, resources⟩

end AccessGroups

import AccessGroups.Proofs.Group.Truncation

/-!
Groups that no function has joined. A pass goes by the resources and the last permissions, and the steps
for such groups change neither, so it ends as it does without them. It tells the host of each of them in one
line, in order, up to the group at which it is stopped, which is used.
-/

set_option autoImplicit false

namespace AccessGroups

/-- What the host is told of a group that no function has joined. -/
def unusedNotice (group : Value) : String :=
  "WARNING: " ++ ("Group \"" ++ group.display ++ "\" is not used")

namespace Step

def isUnused : Step → Bool
  | .unused _ => true
  | _ => false

def notice? : Step → Option String
  | .unused group => some (unusedNotice group)
  | _ => none

theorem notice?_eq_none {step : Step} (used : step.isUnused = false) : step.notice? = none := by
  cases step with
  | unused group => cases used
  | _ => rfl

end Step

namespace Pass

/-- Passes that have come to the same resources and the same last permissions. -/
structure Alike (p q : Pass) : Prop where
  resources : p.resources = q.resources
  chain : p.chain = q.chain

/-- Runs that end alike. -/
structure SameEnd (first second : Progress Pass Fault) : Prop where
  fault : first.fault? = second.fault?
  reached : Alike first.reached second.reached

theorem SameEnd.symm {first second : Progress Pass Fault} (same : SameEnd first second) :
    SameEnd second first :=
  ⟨same.fault.symm, same.reached.resources.symm, same.reached.chain.symm⟩

theorem SameEnd.trans {first second third : Progress Pass Fault} (same : SameEnd first second)
    (other : SameEnd second third) : SameEnd first third :=
  ⟨same.fault.trans other.fault, same.reached.resources.trans other.reached.resources,
    same.reached.chain.trans other.reached.chain⟩

theorem SameEnd.ofExcept {p q : Pass} (alike : Alike p q) {β : Type} (result : Except Fault β)
    {f g : β → Progress Pass Fault} (each : ∀ b, SameEnd (f b) (g b)) :
    SameEnd (.ofExcept p result f) (.ofExcept q result g) := by
  cases result with
  | ok b => exact each b
  | error fault => exact ⟨rfl, alike⟩

theorem SameEnd.andThen {first second : Progress Pass Fault} (same : SameEnd first second)
    {f g : Pass → Progress Pass Fault} (each : ∀ p q, Alike p q → SameEnd (f p) (g q)) :
    SameEnd (first.andThen f) (second.andThen g) := by
  cases ended : first.fault? with
  | none =>
    rw [Progress.andThen_of_ok _ ended, Progress.andThen_of_ok _ (same.fault ▸ ended)]
    exact each _ _ same.reached
  | some fault =>
    rw [Progress.andThen_of_stopped _ (by simp [ended]),
      Progress.andThen_of_stopped _ (by simp [← same.fault, ended])]
    exact same

/-- A step goes by the resources and the last permissions alone. -/
theorem take_alike (toHost : Bool) {p q : Pass} (alike : Alike p q) (step : Step) :
    SameEnd (p.take toHost step) (q.take toHost step) := by
  obtain ⟨resources, chain, events, notices⟩ := p
  obtain ⟨resources', chain', events', notices'⟩ := q
  obtain ⟨same, last⟩ := alike
  dsimp only at same last
  subst same last
  have alike : Alike ⟨resources, chain, events, notices⟩ ⟨resources, chain, events', notices'⟩ :=
    ⟨rfl, rfl⟩
  cases step with
  | unused group => cases toHost <;> exact ⟨rfl, rfl, rfl⟩
  | permission group function principal =>
    simp only [take, addPermission, lastPermission]
    refine .ofExcept alike _ fun previous => .ofExcept alike _ ?_
    rintro ⟨grown, added⟩
    cases added <;> exact ⟨rfl, rfl, rfl⟩
  | role request =>
    simp only [take, addRole]
    refine .ofExcept alike _ fun taken => ?_
    cases taken with
    | true => exact ⟨rfl, rfl, rfl⟩
    | false =>
      refine .ofExcept alike _ fun principals => ?_
      cases principals with
      | nil => exact ⟨rfl, rfl, rfl⟩
      | cons first others =>
        exact .ofExcept alike _ fun functions => .ofExcept alike _ fun _ => ⟨rfl, rfl, rfl⟩
  | refuse fault => exact ⟨rfl, rfl, rfl⟩

theorem unused_alike (toHost : Bool) {p q : Pass} (alike : Alike p q) (group : Value) :
    Alike (p.noticeUnused toHost group) q := by
  cases toHost <;> exact ⟨alike.resources, alike.chain⟩

/-- A run ends as it does without the steps for groups that are not used. -/
theorem walk_without_unused (toHost : Bool) (steps : List Step) {p q : Pass} (alike : Alike p q) :
    SameEnd (Progress.walk (take toHost) p steps)
      (Progress.walk (take toHost) q (steps.filter (!·.isUnused))) := by
  induction steps generalizing p q with
  | nil => exact ⟨rfl, alike⟩
  | cons step rest ih =>
    cases unused : step.isUnused with
    | true =>
      cases step with
      | unused group =>
        rw [List.filter_cons_of_neg (by simp [unused])]
        exact ih (unused_alike toHost alike group)
      | _ => cases unused
    | false =>
      rw [List.filter_cons_of_pos (by simp [unused]), Progress.walk_cons, Progress.walk_cons]
      exact (take_alike toHost alike step).andThen fun _ _ => ih

theorem ofExcept_notices {p : Pass} {β : Type} (result : Except Fault β)
    {next : β → Progress Pass Fault} (each : ∀ b, (next b).reached.notices = p.notices) :
    (Progress.ofExcept p result next).reached.notices = p.notices :=
  @Progress.ofExcept_keeps _ _ _ _ result next (fun q => q.notices = p.notices) rfl each

/-- A step adds its notice to those that the host was sent before. -/
theorem take_notices (p : Pass) (step : Step) :
    (p.take true step).reached.notices = p.notices ++ step.notice?.toList := by
  cases step with
  | unused group => rfl
  | permission group function principal =>
    rw [Step.notice?_eq_none rfl, Option.toList_none, List.append_nil]
    refine ofExcept_notices _ fun previous => ofExcept_notices _ ?_
    rintro ⟨grown, added⟩
    cases added <;> rfl
  | role request =>
    rw [Step.notice?_eq_none rfl, Option.toList_none, List.append_nil]
    refine ofExcept_notices _ fun taken => ?_
    cases taken with
    | true => rfl
    | false =>
      refine ofExcept_notices _ fun principals => ?_
      cases principals with
      | nil => rfl
      | cons first others => exact ofExcept_notices _ fun functions => ofExcept_notices _ fun _ => rfl
  | refuse fault => exact (List.append_nil p.notices).symm

theorem walk_notices (steps : List Step) (p : Pass)
    (ok : (Progress.walk (take true) p steps).fault? = none) :
    (Progress.walk (take true) p steps).reached.notices =
      p.notices ++ steps.filterMap Step.notice? := by
  induction steps generalizing p with
  | nil => exact (List.append_nil p.notices).symm
  | cons step rest ih =>
    rw [Progress.walk_cons, Progress.andThen_fault?_eq_none_iff] at ok
    rw [Progress.walk_cons, Progress.andThen_of_ok _ ok.1, ih _ ok.2, take_notices, List.append_assoc]
    cases notified : step.notice? with
    | none => rw [List.filterMap_cons_none notified]; rfl
    | some line => rw [List.filterMap_cons_some notified]; rfl

end Pass

namespace ResolvedGroup

theorem isUnused_of_used {g : ResolvedGroup} (used : g.isUsed = true) {step : Step}
    (member : step ∈ g.steps) : step.isUnused = false := by
  rw [steps, if_pos used] at member
  rcases List.mem_append.mp member with policy | role
  · rcases mem_policySteps policy with ⟨_, _, _, _, _, _, rfl⟩ | ⟨fault, rfl⟩ <;> rfl
  · obtain ⟨directive, -, rfl⟩ := List.mem_map.mp role
    rcases roleStep_cases g directive with asked | ⟨fault, refused⟩
    · rw [asked]; rfl
    · rw [refused]; rfl

theorem filter_steps (g : ResolvedGroup) :
    g.steps.filter (!·.isUnused) = if g.isUsed then g.steps else [] := by
  by_cases used : g.isUsed = true
  · rw [if_pos used, List.filter_eq_self]
    intro step member
    rw [isUnused_of_used used member, Bool.not_false]
  · rw [if_neg used, steps, if_neg used]
    rfl

theorem filterMap_notice?_steps (g : ResolvedGroup) :
    g.steps.filterMap Step.notice? = if g.isUsed then [] else [unusedNotice g.name] := by
  by_cases used : g.isUsed = true
  · rw [if_pos used, List.filterMap_eq_nil_iff]
    exact fun step member => Step.notice?_eq_none (isUnused_of_used used member)
  · rw [if_neg used, steps, if_neg used]
    rfl

end ResolvedGroup

/-- One line for each group that no function has joined, in order. -/
def unusedNotices (groups : List ResolvedGroup) : List String :=
  (groups.filter (!·.isUsed)).map (unusedNotice ·.name)

theorem filter_plan (groups : List ResolvedGroup) :
    (plan groups).filter (!·.isUnused) = plan (groups.filter ResolvedGroup.isUsed) := by
  induction groups with
  | nil => rfl
  | cons g rest ih =>
    rw [plan, List.flatMap_cons, List.filter_append, ResolvedGroup.filter_steps, ← plan, ih]
    by_cases used : g.isUsed = true
    · rw [if_pos used, List.filter_cons_of_pos used]
      rfl
    · rw [if_neg used, List.filter_cons_of_neg used, List.nil_append]

theorem filterMap_notice?_plan (groups : List ResolvedGroup) :
    (plan groups).filterMap Step.notice? = unusedNotices groups := by
  induction groups with
  | nil => rfl
  | cons g rest ih =>
    rw [plan, List.flatMap_cons, List.filterMap_append, ResolvedGroup.filterMap_notice?_steps, ← plan,
      ih]
    by_cases used : g.isUsed = true
    · simp only [used, ↓reduceIte, List.nil_append, unusedNotices, Bool.not_true, Bool.false_eq_true,
        not_false_eq_true, List.filter_cons_of_neg]
    · simp [used, unusedNotices]

/-- An emission goes by the groups that are used, and by nothing that stands between them. -/
theorem emit_filter_used (toHost : Bool) (groups : List ResolvedGroup) (c : Template.Collection) :
    Pass.SameEnd (emit toHost groups c) (emit toHost (groups.filter ResolvedGroup.isUsed) c) := by
  have same := Pass.walk_without_unused toHost (plan groups)
    (show Pass.Alike (Pass.start c) (Pass.start c) from ⟨rfl, rfl⟩)
  rwa [filter_plan] at same

theorem emit_congr_used (toHost : Bool) {groups others : List ResolvedGroup} (c : Template.Collection)
    (same : groups.filter ResolvedGroup.isUsed = others.filter ResolvedGroup.isUsed) :
    Pass.SameEnd (emit toHost groups c) (emit toHost others c) := by
  have first := emit_filter_used toHost groups c
  rw [same] at first
  exact first.trans (emit_filter_used toHost others c).symm

theorem emit_notices {groups : List ResolvedGroup} {c : Template.Collection}
    (ok : (emit true groups c).fault? = none) :
    (emit true groups c).reached.notices = unusedNotices groups := by
  rw [← filterMap_notice?_plan]
  exact Pass.walk_notices (plan groups) (Pass.start c) ok

/-- An emission that fails has come through the groups before some group, which is used and at which it
fails, and it has told of those before it that are not used. -/
theorem emit_stopped {groups : List ResolvedGroup} {c : Template.Collection} {fault : Fault}
    (failed : (emit true groups c).fault? = some fault) :
    ∃ earlier g later, groups = earlier ++ g :: later ∧ g.isUsed = true ∧
      (emit true earlier c).fault? = none ∧ (emit true (earlier ++ [g]) c).fault? = some fault ∧
      (emit true groups c).reached.notices = unusedNotices earlier := by
  have stopped : (emit true groups c).fault? ≠ none := by simp [failed]
  obtain ⟨before, step, after, planned, taken, last⟩ := Progress.walk_stopped stopped
  rw [← emit] at last
  rw [last] at failed
  have here : (((Progress.walk (Pass.take true) (Pass.start c) before).reached).take true step).fault? ≠
      none := by simp [failed]
  obtain ⟨earlier, g, later, front, back, rfl, inside, rfl⟩ := exists_part_of_flatMap planned
  have used : g.isUsed = true := used_of_stopped inside here
  have quiet : front.filterMap Step.notice? = [] := by
    rw [List.filterMap_eq_nil_iff]
    intro other member
    exact Step.notice?_eq_none (ResolvedGroup.isUnused_of_used used (by simp [inside, member]))
  refine ⟨earlier, g, later, rfl, used, ?_, ?_, ?_⟩
  · rw [Progress.walk_append, Progress.andThen_fault?_eq_none_iff] at taken
    exact taken.1
  · rw [emit, plan_append_singleton, inside, plan, ← List.append_assoc, Progress.walk_append,
      Progress.andThen_of_ok _ taken, Progress.walk_cons, Progress.andThen_of_stopped _ here, failed]
  · rw [last, Pass.reached_of_stopped here, Pass.walk_notices _ _ taken, List.filterMap_append, quiet,
      List.append_nil]
    exact filterMap_notice?_plan earlier

end AccessGroups

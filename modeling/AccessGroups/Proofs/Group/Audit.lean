import AccessGroups.Proofs.Group.Truncation

/-!
The log of a pass as an audit. The steps of a pass are traced back to the groups that ask for them. So the
log tells what a pass has added, in order, and for which group and function, also where the pass was stopped.
-/

set_option autoImplicit false

namespace AccessGroups

namespace ResolvedGroup

/-- The group asks for a resource under the name. -/
def Requests (g : ResolvedGroup) (name : String) : Prop := ∃ item ∈ g.items, item.name = name

theorem group_of_mem_steps {g : ResolvedGroup} {step : Step} {item : Item} (member : step ∈ g.steps)
    (asked : step.item? = some item) : step.group = g.name := by
  cases step with
  | role request =>
    obtain ⟨directive, -, rfl⟩ := directive_of_mem_steps member
    rfl
  | permission group function principal =>
    unfold steps at member
    split at member
    · rcases List.mem_append.mp member with policy | role
      · rcases mem_policySteps policy with ⟨_, _, _, _, _, _, same⟩ | ⟨fault, refused⟩
        · cases same
          rfl
        · cases refused
      · obtain ⟨directive, -, same⟩ := List.mem_map.mp role
        rcases roleStep_cases g directive with other | ⟨fault, refused⟩
        · rw [other] at same
          cases same
        · rw [refused] at same
          cases same
    · cases List.mem_singleton.mp member
  | unused group => cases asked
  | refuse fault => cases asked

theorem not_requests_of_steps {g : ResolvedGroup} (texts : g.HasTextIds) {name : String}
    (free : ∀ step ∈ g.steps, step.LeavesFree name) : ¬ g.Requests name := by
  rintro ⟨item, member, same⟩
  rw [← filterMap_item?_steps texts.ids_eq.1 fun fault refused => (free _ refused).1 fault rfl]
    at member
  obtain ⟨step, taken, asked⟩ := List.mem_filterMap.mp member
  exact (free step taken).2 item asked same

end ResolvedGroup

/-- The group is the first one to ask for a resource under the name. -/
def FirstToRequest (groups : List ResolvedGroup) (g : ResolvedGroup) (name : String) : Prop :=
  ∃ earlier later, groups = earlier ++ g :: later ∧ g.Requests name ∧
    ∀ other ∈ earlier, ¬ other.Requests name

/-- The event reports that a named resource was added. It names the first group to ask for it. Of a
permission it names the function, and of a role it states how many functions the role is about. -/
structure Reports (groups : List ResolvedGroup) (entry : String × Value) (event : Log.Event) :
    Prop where
  group : ∃ g, FirstToRequest groups g entry.1 ∧ event.group = Log.contextOf g.name
  resource :
    (∃ id, Template.permitted? entry.2 = some id ∧ event.function = Log.contextOf (.text id) ∧
      event.message =
        "Added " ++ entry.1 ++ " for principal " ++ Log.preview (Template.grantee entry.2)) ∨
    (Template.isOfType entry.2 "AWS::IAM::Role" = true ∧ event.function = .null ∧
      event.message =
        "Added " ++ entry.1 ++ " covering " ++ toString (Template.governed entry.2).length ++
          " function(s)")

/-- What is announced for a step of a plan is announced for the first group that asks for it. -/
theorem reports_of_announcedFirst {groups : List ResolvedGroup}
    (texts : ∀ g ∈ groups, g.HasTextIds) {entry : String × Value} {event : Log.Event}
    (announced : AnnouncedFirst (plan groups) entry event) : Reports groups entry event := by
  cases announced with
  | @intro before after step item previous split first asked =>
    obtain ⟨earlier, g, later, front, back, rfl, here, rfl⟩ := exists_part_of_flatMap split
    have member : step ∈ g.steps := by simp [here]
    have among : item ∈ g.items :=
      ResolvedGroup.mem_items_of_mem_steps (texts g (by simp)).ids_eq.1 member asked
    have textual : item.Textual :=
      textual_of_mem_items texts (List.mem_flatMap.mpr ⟨g, by simp, among⟩)
    rw [ResolvedGroup.group_of_mem_steps member asked]
    refine ⟨⟨g, ⟨earlier, later, rfl, ⟨item, among, rfl⟩, fun other before => ?_⟩, ?_⟩, ?_⟩
    · apply ResolvedGroup.not_requests_of_steps (texts other (List.mem_append_left _ before))
      intro taken inside
      exact first taken (List.mem_append_left _ (List.mem_flatMap.mpr ⟨other, before, inside⟩))
    · cases item <;> rfl
    · cases item with
      | permission function principal =>
        obtain ⟨id, rfl⟩ := textual
        exact .inl ⟨id, by simp [Item.resource], rfl, by simp [Item.resource, Item.announcement,
          Log.Event.about]⟩
      | role name functions principals tagSession duration =>
        exact .inr ⟨by simp [Item.resource], rfl, by simp [Item.resource, Item.announcement,
          Log.Event.about]⟩

/-- The additions that a pass reports, whether it is stopped or not, are those that it made, in order: each
resource that the collection gained is reported for the first group that asks for it, and nothing else is. -/
theorem emit_audited (toHost : Bool) (groups : List ResolvedGroup) (c : Template.Collection)
    (texts : ∀ g ∈ groups, g.HasTextIds) :
    ∃ added, c.Gained added (emit toHost groups c).reached.resources ∧
      List.Forall₂ (Reports groups) added (emit toHost groups c).reached.additions := by
  obtain ⟨added, reported, gained, log, announced⟩ :=
    walk_audited toHost (plan groups) (Pass.start c)
  have log : (emit toHost groups c).reached.additions = reported := log
  rw [log]
  exact ⟨added, gained, announced.imp fun _ _ => reports_of_announcedFirst texts⟩

/-- The pass over the spoiled groups is stopped, and it has added and reported something until then. -/
theorem emit_audited_spoiled :
    (∀ g ∈ spoiledGroups, g.HasTextIds) ∧
      (emit false spoiledGroups ⟨.map [(.text "Table", .null)]⟩).fault? =
        some (.config (.badPrincipal (.bool true))) ∧
      ∃ added, added ≠ [] ∧
        Template.Collection.Gained ⟨.map [(.text "Table", .null)]⟩ added
          (emit false spoiledGroups ⟨.map [(.text "Table", .null)]⟩).reached.resources ∧
        List.Forall₂ (Reports spoiledGroups) added
          (emit false spoiledGroups ⟨.map [(.text "Table", .null)]⟩).reached.additions := by
  obtain ⟨added, gained, reported⟩ :=
    emit_audited false spoiledGroups ⟨.map [(.text "Table", .null)]⟩ spoiledGroups_texts
  refine ⟨spoiledGroups_texts, rfl, added, ?_, gained, reported⟩
  rintro rfl
  cases List.forall₂_nil_left_iff.mp reported

end AccessGroups

import AccessGroups.Proofs.Group.Account

/-!
Growth of a collection. Whatever stands in the place of the resources and whatever the ids of functions
are, a step of a pass adds at most one entry, at the end and under a name that was free, and a step that
stops the pass does nothing. So a pass, failing or not, only ever appends to a mapping, and leaves
anything else as it is.
-/

set_option autoImplicit false

namespace AccessGroups

def Step.AsksFor (name : String) (resource : Value) : Step → Prop
  | .permission _ function principal =>
    name = Identifier.permissionName function.display principal ∧
      ∃ previous, resource = Template.permission function principal previous
  | .role request =>
    name = Identifier.roleResourceName request.role.display ∧
      ∃ functions principals, request.functions = .ok functions ∧
        request.principals = .ok principals ∧
        resource = Template.role request.role.display functions principals request.tagSession
          request.duration
  | _ => False

theorem Step.asksFor_of_item? {step : Step} {item : Item} (asked : step.item? = some item)
    (previous : Option String) : step.AsksFor item.name (item.resource previous) := by
  cases step with
  | permission group function principal =>
    obtain rfl := Option.some.inj asked
    exact ⟨rfl, _, rfl⟩
  | role request =>
    simp only [Step.item?] at asked
    split at asked
    · rename_i functions first others members named
      obtain rfl := Option.some.inj asked
      exact ⟨rfl, functions, first :: others, members, named, rfl⟩
    · cases asked
  | unused group => cases asked
  | refuse fault => cases asked

theorem AnnouncedFirst.asksFor {steps : List Step} {entry : String × Value} {event : Log.Event}
    (announced : AnnouncedFirst steps entry event) :
    ∃ step ∈ steps, step.AsksFor entry.1 entry.2 := by
  cases announced with
  | intro before previous split first asked =>
    exact ⟨_, by simp [split], Step.asksFor_of_item? asked previous⟩

namespace Pass

/-- What a step may come to: it stops the pass where it stands, it leaves the resources as they are, or
it appends what it asks for. -/
inductive Outcome (p : Pass) (step : Step) : Progress Pass Fault → Prop
  | stopped (fault : Fault) : Outcome p step (.stop p fault)
  | kept {q : Pass} (resources : q.resources = p.resources) : Outcome p step (.done q)
  | appended {q : Pass} (es : Entries Value) (name : String) (resource : Value)
    (asked : step.AsksFor name resource) (stands : p.resources = ⟨.map es⟩) (free : name ∉ es.names)
    (resources : q.resources = ⟨.map (es ++ [(.text name, resource)])⟩) : Outcome p step (.done q)

theorem take_outcome (toHost : Bool) (p : Pass) (step : Step) :
    Outcome p step (p.take toHost step) := by
  have account := take_account toHost p step
  generalize p.take toHost step = run at *
  cases account with
  | stopped fault => exact .stopped fault
  | silent _ _ resources => exact .kept resources
  | announced es item previous asked stands free resources =>
    exact .appended es _ _ (Step.asksFor_of_item? asked previous) stands free resources

theorem reached_of_stopped {toHost : Bool} {p : Pass} {step : Step}
    (stopped : (p.take toHost step).fault? ≠ none) : (p.take toHost step).reached = p := by
  have outcome := take_outcome toHost p step
  generalize p.take toHost step = run at *
  cases outcome with
  | stopped fault => rfl
  | kept => exact absurd rfl stopped
  | appended => exact absurd rfl stopped

end Pass

/-- What steps may make of a collection: they leave it as it is, or they append resources that they ask
for, under different names that were free. -/
inductive Grown (steps : List Step) : Template.Collection → Template.Collection → Prop
  | kept (c : Template.Collection) : Grown steps c c
  | appended (es : Entries Value) (added : List (String × Value))
    (free : ∀ e ∈ added, e.1 ∉ es.names) (once : (added.map Prod.fst).Nodup)
    (asked : ∀ e ∈ added, ∃ step ∈ steps, step.AsksFor e.1 e.2) :
    Grown steps ⟨.map es⟩ ⟨.map (es ++ Entries.ofNamed added)⟩

theorem Grown.of_gained {steps : List Step} {c after : Template.Collection}
    {added : List (String × Value)} (gained : c.Gained added after)
    (asked : ∀ e ∈ added, ∃ step ∈ steps, step.AsksFor e.1 e.2) : Grown steps c after := by
  cases gained with
  | nothing => exact .kept c
  | entries es added stands free once =>
    rw [stands]
    exact .appended es added free once asked

/-- A run of a pass, failing or not, grows its collection by what its steps ask for. -/
theorem walk_grown (toHost : Bool) (steps : List Step) (p : Pass) :
    Grown steps p.resources (Progress.walk (Pass.take toHost) p steps).reached.resources := by
  obtain ⟨added, reported, gained, -, announced⟩ := walk_audited toHost steps p
  have asked : List.Forall₂ (fun e event => (∃ step ∈ steps, step.AsksFor e.1 e.2) ∧
      AnnouncedFirst steps e event) added reported :=
    announced.imp fun _ _ first => ⟨first.asksFor, first⟩
  exact .of_gained gained ((List.forall₂_and_left _ _).mp asked).1

theorem Emission.gained {p : Pass} {es : Entries Value} {steps before rest : List Step}
    {run : Progress Pass Fault} (emission : Emission p es steps run before rest) :
    Template.Collection.Gained ⟨.map es⟩
      (linked p.chain (fresh es.names (before.filterMap Step.item?))) run.reached.resources := by
  rw [emission.resources]
  refine .entries es _ rfl ?_ ?_
  · rintro ⟨name, resource⟩ member
    obtain ⟨item, among, previous, rfl, -⟩ := mem_linked member
    exact not_mem_taken_of_fresh among
  · rw [names_linked]
    exact nodup_names_fresh _ _

theorem emit_grown (toHost : Bool) (groups : List ResolvedGroup) (c : Template.Collection) :
    Grown (plan groups) c (emit toHost groups c).reached.resources :=
  walk_grown toHost (plan groups) (Pass.start c)

end AccessGroups

import AccessGroups.Proofs.Group.Emission
import Mathlib.Data.List.Forall2

/-!
The account of a pass. Whatever stands in the place of the resources and whatever the ids of functions are, a
step of a pass adds at most one entry, at the end and under a name that was free. It reports the entry when
it adds it, and nothing else that it reports reads like such an event. So a run of a pass, failing or not,
reports what it adds, entry by entry and in order.
-/

set_option autoImplicit false

namespace AccessGroups

/-- The event reports that a pass has added a resource. -/
def Log.Event.isAddition (event : Log.Event) : Bool :=
  decide (event.level = .debug) && event.logger == Pass.logger &&
    "Added".toList.isPrefixOf event.message.toList

def Pass.additions (p : Pass) : List Log.Event := p.events.filter Log.Event.isAddition

/-- What is reported of an item that is added for a group. -/
def Item.announcement (group : Value) (item : Item) : Log.Event :=
  match item with
  | .permission function principal =>
    .about .debug Pass.logger group function
      ("Added " ++ item.name ++ " for principal " ++ Log.preview principal.emitted)
  | .role _ functions .. =>
    .about .debug Pass.logger group .null
      ("Added " ++ item.name ++ " covering " ++ toString functions.length ++ " function(s)")

/-- The group that asks for a step; a step at which a pass stops is for none. -/
def Step.group : Step → Value
  | .unused group => group
  | .permission group .. => group
  | .role request => request.group
  | .refuse _ => .null

/-- The step lets a pass go on and does not ask for the name. -/
def Step.LeavesFree (name : String) (step : Step) : Prop :=
  (∀ fault, step ≠ .refuse fault) ∧ ∀ item, step.item? = some item → item.name ≠ name

theorem isAddition_announcement (group : Value) (item : Item) :
    (item.announcement group).isAddition = true := by
  cases item <;>
    simp [Item.announcement, Log.Event.isAddition, Log.Event.about, String.append_assoc]

/-- That a role is left out does not read like an addition. -/
theorem isAddition_skipping (group : Value) (rest : String) :
    (Log.Event.about .debug Pass.logger group .null ("Skipping role " ++ rest)).isAddition =
      false := by
  simp [Log.Event.isAddition, Log.Event.about, List.isPrefixOf]

theorem isAddition_of_level {event : Log.Event} (other : event.level ≠ .debug) :
    event.isAddition = false := by
  simp [Log.Event.isAddition, other]

namespace Template.Collection

theorem assign_eq_map {c after : Collection} {name : String} {resource : Value}
    (assigned : c.assign (.text name) resource = .ok after) : ∃ es, c = ⟨.map es⟩ := by
  obtain ⟨backing⟩ := c
  cases backing with
  | map es => exact ⟨es, rfl⟩
  | _ => cases assigned

/-- An addition changes nothing, or it appends an entry under a free name to a mapping. -/
theorem addIfAbsent_cases {c after : Collection} {name : String} {resource : Value} {added : Bool}
    (done : c.addIfAbsent (.text name) resource = .ok (after, added)) :
    (added = false ∧ after = c) ∨
      ∃ es : Entries Value, added = true ∧ c = ⟨.map es⟩ ∧ name ∉ es.names ∧
        after = ⟨.map (es ++ [(.text name, resource)])⟩ := by
  by_cases mapping : ∃ es : Entries Value, c = ⟨.map es⟩
  · obtain ⟨es, rfl⟩ := mapping
    rw [addIfAbsent_map] at done
    by_cases taken : name ∈ es.names
    · simp only [taken, ↓reduceIte, Except.ok.injEq, Prod.mk.injEq] at done
      exact Or.inl ⟨done.2.symm, done.1.symm⟩
    · simp only [taken, ↓reduceIte, Except.ok.injEq, Prod.mk.injEq] at done
      exact Or.inr ⟨es, done.2.symm, rfl, taken, done.1.symm⟩
  · unfold addIfAbsent at done
    cases contained : c.contains (.text name) with
    | error misuse => simp [contained, bind, Except.bind] at done
    | ok taken =>
      cases taken with
      | true =>
        simp only [contained, bind, Except.bind, pure, Except.pure, ↓reduceIte, Except.ok.injEq,
          Prod.mk.injEq] at done
        exact Or.inl ⟨done.2.symm, done.1.symm⟩
      | false =>
        cases assigned : c.assign (.text name) resource with
        | error misuse => simp [contained, assigned, bind, Except.bind] at done
        | ok grown => exact absurd (assign_eq_map assigned) mapping

/-- The collection has gained entries: they stand behind what was there, under different names that were
free. What is no mapping gains nothing. -/
inductive Gained (c : Collection) : List (String × Value) → Collection → Prop
  | nothing : Gained c [] c
  | entries (es : Entries Value) (added : List (String × Value)) (stands : c = ⟨.map es⟩)
    (free : ∀ e ∈ added, e.1 ∉ es.names) (once : (added.map Prod.fst).Nodup) :
    Gained c added ⟨.map (es ++ Entries.ofNamed added)⟩

theorem Gained.cons {es : Entries Value} {name : String} {resource : Value}
    {added : List (String × Value)} {after : Collection} (free : name ∉ es.names)
    (later : Gained ⟨.map (es ++ [(.text name, resource)])⟩ added after) :
    Gained ⟨.map es⟩ ((name, resource) :: added) after := by
  cases later with
  | nothing => exact .entries es [(name, resource)] rfl (by simpa using free) (by simp)
  | entries _ _ stands apart once =>
    cases stands
    simp only [Entries.names_append, Entries.names_cons_text, Entries.names_nil, List.mem_append,
      List.mem_singleton, not_or] at apart
    rw [List.append_assoc, List.singleton_append, ← Entries.ofNamed_cons]
    refine .entries es ((name, resource) :: added) rfl ?_ ?_
    · intro e member
      rcases List.mem_cons.mp member with rfl | member
      · exact free
      · exact (apart e member).1
    · rw [List.map_cons, List.nodup_cons]
      refine ⟨?_, once⟩
      intro again
      obtain ⟨e, member, same⟩ := List.mem_map.mp again
      exact (apart e member).2 same

theorem Gained.not_contains {c after : Collection} {added : List (String × Value)}
    (gained : c.Gained added after) {e : String × Value} (member : e ∈ added) :
    c.contains (.text e.1) ≠ .ok true := by
  cases gained with
  | nothing => cases member
  | entries es _ stands free =>
    rw [stands, contains_map, decide_eq_false (free e member)]
    exact nofun

theorem contains_of_not_added {c after : Collection} {name resource : Value}
    (done : c.addIfAbsent name resource = .ok (after, false)) : c.contains name = .ok true := by
  unfold addIfAbsent at done
  cases contained : c.contains name with
  | error misuse => simp [contained, bind, Except.bind] at done
  | ok taken =>
    cases taken with
    | true => rfl
    | false =>
      cases assigned : c.assign name resource <;>
        simp [contained, assigned, bind, Except.bind, pure, Except.pure] at done

end Template.Collection

namespace Pass

/-- A step over any collection and what it reports: it stops the pass where it stands, it adds nothing and
reports no addition, or it adds its item and reports that. -/
inductive Account (p : Pass) (step : Step) : Progress Pass Fault → Prop
  | stopped (fault : Fault) : Account p step (.stop p fault)
  | silent {q : Pass} (going : ∀ fault, step ≠ .refuse fault)
    (taken : ∀ item, step.item? = some item → p.resources.contains (.text item.name) = .ok true)
    (resources : q.resources = p.resources) (reported : q.additions = p.additions) :
    Account p step (.done q)
  | announced {q : Pass} (es : Entries Value) (item : Item) (previous : Option String)
    (asked : step.item? = some item) (stands : p.resources = ⟨.map es⟩) (free : item.name ∉ es.names)
    (resources : q.resources = ⟨.map (es ++ [(.text item.name, item.resource previous)])⟩)
    (reported : q.additions = p.additions ++ [item.announcement step.group]) :
    Account p step (.done q)

/-- A part of a step that may fail stops the pass where it stands. -/
theorem Account.ofExcept {p : Pass} {step : Step} {β : Type} (result : Except Fault β)
    (next : β → Progress Pass Fault) (each : ∀ b, result = .ok b → Account p step (next b)) :
    Account p step (.ofExcept p result next) := by
  cases result with
  | ok b => exact each b rfl
  | error fault => exact .stopped fault

theorem additions_report_of_addition {p : Pass} {event : Log.Event}
    (addition : event.isAddition = true) : (p.report event).additions = p.additions ++ [event] := by
  simp [additions, report, addition]

theorem additions_report_of_other {p : Pass} {event : Log.Event}
    (other : event.isAddition = false) : (p.report event).additions = p.additions := by
  simp [additions, report, other]

theorem eq_of_lastPermission {p : Pass} {function previous : Value}
    (last : p.lastPermission function = .ok previous) :
    previous = ((Entries.get? p.chain function).map Value.text).getD .null := by
  unfold lastPermission at last
  split at last
  · exact (Except.ok.inj last).symm
  · cases last

theorem addPermission_account (p : Pass) (group function : Value) (principal : Principal) :
    Account p (.permission group function principal)
      (p.addPermission group function principal) := by
  refine .ofExcept _ _ fun previous last => .ofExcept _ _ ?_
  rintro ⟨resources, added⟩ done
  have done := eq_ok_of_mapError done
  rw [eq_of_lastPermission (eq_ok_of_mapError last)] at done
  rcases Template.Collection.addIfAbsent_cases done with ⟨rfl, -⟩ | ⟨es, rfl, stands, free, grown⟩
  · refine .silent nofun ?_ rfl rfl
    rintro item ⟨rfl⟩
    exact Template.Collection.contains_of_not_added done
  · exact .announced es (.permission function principal) (Entries.get? p.chain function) rfl stands
      free grown (additions_report_of_addition
        (isAddition_announcement group (.permission function principal)))

theorem addRole_account (p : Pass) (request : RoleRequest) :
    Account p (.role request) (p.addRole request) := by
  refine .ofExcept _ _ fun taken contained => ?_
  have contained := eq_ok_of_mapError contained
  cases taken with
  | true => exact .stopped _
  | false =>
    refine .ofExcept _ _ fun principals named => ?_
    have named := eq_ok_of_mapError named
    cases principals with
    | nil =>
      refine .silent nofun ?_ rfl (additions_report_of_other ?_)
      · intro item asked
        cases members : request.functions <;> simp [Step.item?, members, named] at asked
      · rw [String.append_assoc]
        exact isAddition_skipping request.group _
    | cons first others =>
      refine .ofExcept _ _ fun functions members => .ofExcept _ _ ?_
      have members := eq_ok_of_mapError members
      rintro ⟨resources, added⟩ done
      have done := eq_ok_of_mapError done
      rcases Template.Collection.addIfAbsent_cases done with
        ⟨rfl, -⟩ | ⟨es, rfl, stands, free, grown⟩
      · -- the name was found free before
        rw [Template.Collection.contains_of_not_added done] at contained
        cases contained
      · have asked : (Step.role request).item? = some (.role request.role.display functions
            (first :: others) request.tagSession request.duration) := by
          simp [Step.item?, members, named]
        have reported := isAddition_announcement request.group (.role request.role.display functions
          (first :: others) request.tagSession request.duration)
        exact .announced es _ none asked stands free grown (additions_report_of_addition reported)

theorem take_account (toHost : Bool) (p : Pass) (step : Step) :
    Account p step (p.take toHost step) := by
  cases step with
  | unused group =>
    refine .silent nofun (fun item asked => by cases asked) ?_ ?_
    · cases toHost <;> rfl
    · cases toHost with
      | true => rfl
      | false => exact additions_report_of_other (isAddition_of_level nofun)
  | permission group function principal => exact addPermission_account p group function principal
  | role request => exact addRole_account p request
  | refuse fault => exact .stopped fault

end Pass

/-- The entry is the item of one of the steps, and the event reports it for the group of that step. All
steps before that one let the pass go on, and none of them asks for the entry's name. -/
inductive AnnouncedFirst (steps : List Step) : String × Value → Log.Event → Prop
  | intro (before : List Step) {after : List Step} {step : Step} {item : Item}
    (previous : Option String) (split : steps = before ++ step :: after)
    (first : ∀ earlier ∈ before, earlier.LeavesFree item.name) (asked : step.item? = some item) :
    AnnouncedFirst steps (item.name, item.resource previous) (item.announcement step.group)

theorem AnnouncedFirst.cons {step : Step} {rest : List Step} {entry : String × Value}
    {event : Log.Event} (free : step.LeavesFree entry.1) (later : AnnouncedFirst rest entry event) :
    AnnouncedFirst (step :: rest) entry event := by
  cases later with
  | intro before previous split first asked =>
    refine .intro (step :: before) previous (by rw [split]; rfl) ?_ asked
    intro earlier member
    rcases List.mem_cons.mp member with rfl | member
    · exact free
    · exact first earlier member

/-- A step before others that add only names it leaves free. -/
theorem forall₂_announcedFirst_cons {step : Step} {rest : List Step}
    {added : List (String × Value)} {reported : List Log.Event}
    (free : ∀ e ∈ added, step.LeavesFree e.1)
    (later : List.Forall₂ (AnnouncedFirst rest) added reported) :
    List.Forall₂ (AnnouncedFirst (step :: rest)) added reported :=
  ((List.forall₂_and_left _ _).mpr ⟨free, later⟩).imp fun _ _ both => both.2.cons both.1

/-- A run of a pass, failing or not, reports the entries that it adds, one by one and in order. -/
theorem walk_audited (toHost : Bool) (steps : List Step) (p : Pass) :
    ∃ added reported,
      p.resources.Gained added (Progress.walk (Pass.take toHost) p steps).reached.resources ∧
      (Progress.walk (Pass.take toHost) p steps).reached.additions = p.additions ++ reported ∧
      List.Forall₂ (AnnouncedFirst steps) added reported := by
  induction steps generalizing p with
  | nil => exact ⟨[], [], .nothing, by simp [Progress.done], .nil⟩
  | cons step rest ih =>
    rw [Progress.walk_cons]
    have account := Pass.take_account toHost p step
    generalize p.take toHost step = run at *
    cases account with
    | stopped fault => exact ⟨[], [], .nothing, by simp [Progress.stop, Progress.andThen], .nil⟩
    | @silent q going taken resources reported =>
      obtain ⟨added, more, gained, log, announced⟩ := ih q
      rw [resources] at gained
      refine ⟨added, more, gained, by rw [← reported]; exact log, ?_⟩
      refine forall₂_announcedFirst_cons (fun e member => ⟨going, ?_⟩) announced
      intro item asked same
      exact gained.not_contains member (same ▸ taken item asked)
    | @announced q es item previous asked stands free resources reported =>
      obtain ⟨added, more, gained, log, announced⟩ := ih q
      rw [resources] at gained
      have first : AnnouncedFirst (step :: rest) (item.name, item.resource previous)
          (item.announcement step.group) := .intro [] previous rfl (List.forall_mem_nil _) asked
      refine ⟨_ :: added, _ :: more, stands ▸ gained.cons free, ?_, .cons first ?_⟩
      · rw [List.append_cons, ← reported]
        exact log
      · refine forall₂_announcedFirst_cons (fun e member => ?_) announced
        refine ⟨?_, ?_⟩
        · rintro fault rfl
          cases asked
        · intro other again same
          obtain rfl := Option.some.inj (asked.symm.trans again)
          apply gained.not_contains member
          rw [Template.Collection.contains_map, ← same]
          simp

end AccessGroups

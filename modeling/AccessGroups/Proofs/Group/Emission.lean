import AccessGroups.Proofs.Group.Item

/-!
A pass over a mapping, step by step. A step that does not stop the pass adds the item that it asks for
unless the item's name is taken, and does nothing else to the resources or to the last permissions. A
run of a pass is therefore told by its items: it adds the fresh ones of the steps that it completes,
linked, and it completes all steps when each is admitted.
-/

set_option autoImplicit false

namespace AccessGroups

def Step.item? : Step → Option Item
  | .permission _ function principal => some (.permission function principal)
  | .role request =>
    match request.functions, request.principals with
    | .ok functions, .ok (first :: others) =>
      some (.role request.role.display functions (first :: others) request.tagSession
        request.duration)
    | _, _ => none
  | _ => none

def Step.Textual : Step → Prop
  | .permission _ function _ => ∃ id, function = .text id
  | .role request => ∃ ids : List String, request.functions = .ok (ids.map .text)
  | _ => True

/-- A step that can be taken when the given names are taken. -/
def Step.Admitted (taken : List String) : Step → Prop
  | .role request =>
    Identifier.roleResourceName request.role.display ∉ taken ∧
      ∃ principals, request.principals = .ok principals
  | .refuse _ => False
  | _ => True

def askedNames (steps : List Step) : List String := (steps.filterMap Step.item?).map Item.name

/-- Every step can be taken when the items of the steps before it are added. -/
def Admitted (taken : List String) : List Step → Prop
  | [] => True
  | step :: rest => step.Admitted taken ∧ Admitted (taken ++ askedNames [step]) rest

theorem Template.Collection.contains_map (es : Entries Value) (name : String) :
    Template.Collection.contains ⟨.map es⟩ (.text name) = .ok (decide (name ∈ es.names)) := by
  simp only [Template.Collection.contains, Value.hashable, ↓reduceIte, Except.ok.injEq]
  rw [Bool.eq_iff_iff, Entries.has_text_iff, decide_eq_true_iff]

theorem Template.Collection.addIfAbsent_map (es : Entries Value) (name : String)
    (resource : Value) :
    Template.Collection.addIfAbsent ⟨.map es⟩ (.text name) resource =
      .ok (if name ∈ es.names then (⟨.map es⟩, false)
        else (⟨.map (es ++ [(.text name, resource)])⟩, true)) := by
  unfold Template.Collection.addIfAbsent
  rw [contains_map]
  by_cases taken : name ∈ es.names
  · simp [taken, bind, Except.bind, pure, Except.pure]
  · have assigned : Template.Collection.assign ⟨.map es⟩ (.text name) resource =
        .ok ⟨.map (es ++ [(.text name, resource)])⟩ := by
      simp [Template.Collection.assign, Value.assign, Value.hashable, Except.map,
        Entries.put_of_not_mem_names es name resource taken]
    simp [assigned, taken, bind, Except.bind, pure, Except.pure]

namespace Pass

/-- What one step does to the resources and the last permissions, with the names taken before it. -/
inductive Effect (p : Pass) (es : Entries Value) (step : Step) (run : Progress Pass Fault) : Prop
  | stopped (refused : ¬ step.Admitted es.names) (fault : run.fault? ≠ none)
    (resources : run.reached.resources = ⟨.map es⟩) (chain : run.reached.chain = p.chain)
  | skipped (admitted : step.Admitted es.names) (fault : run.fault? = none)
    (taken : ∀ item, step.item? = some item → item.name ∈ es.names)
    (resources : run.reached.resources = ⟨.map es⟩) (chain : run.reached.chain = p.chain)
  | added (item : Item) (admitted : step.Admitted es.names) (fault : run.fault? = none)
    (asked : step.item? = some item) (free : item.name ∉ es.names)
    (resources : run.reached.resources =
      ⟨.map (es ++ [(.text item.name, item.resource (item.previous p.chain))])⟩)
    (chain : run.reached.chain = item.advance p.chain)

theorem addPermission_effect (p : Pass) (es : Entries Value) (stands : p.resources = ⟨.map es⟩)
    (group : Value) (id : String) (principal : Principal) :
    Effect p es (.permission group (.text id) principal)
      (p.addPermission group (.text id) principal) := by
  unfold addPermission
  simp only [lastPermission, Value.hashable, ↓reduceIte, Progress.ofExcept_mapError_ok, stands,
    Template.Collection.addIfAbsent_map]
  by_cases taken : Identifier.permissionName (Value.text id).display principal ∈ es.names
  · simp only [taken, ↓reduceIte]
    refine .skipped trivial rfl ?_ stands rfl
    rintro item ⟨rfl⟩
    exact taken
  · simp only [taken, ↓reduceIte]
    exact .added (.permission (.text id) principal) trivial rfl rfl taken rfl rfl

theorem addRole_effect (p : Pass) (es : Entries Value) (stands : p.resources = ⟨.map es⟩)
    (request : RoleRequest) (functions : List Value) (members : request.functions = .ok functions) :
    Effect p es (.role request) (p.addRole request) := by
  unfold addRole
  simp only [stands, Template.Collection.contains_map, Progress.ofExcept_mapError_ok]
  by_cases taken : Identifier.roleResourceName request.role.display ∈ es.names
  · simp only [taken, decide_true, ↓reduceIte]
    exact .stopped (fun admitted => admitted.1 taken) (by simp [Progress.stop]) stands rfl
  · simp only [taken, decide_false, Bool.false_eq_true, ↓reduceIte]
    cases named : request.principals with
    | error fault =>
      refine .stopped ?_ (by simp [Progress.stop]) stands rfl
      rintro ⟨-, principals, given⟩
      rw [named] at given
      cases given
    | ok principals =>
      have admitted : (Step.role request).Admitted es.names := ⟨taken, principals, named⟩
      cases principals with
      | nil =>
        refine .skipped admitted rfl ?_ stands rfl
        intro item asked
        simp [Step.item?, members, named] at asked
      | cons first others =>
        simp only [members, ↓reduceIte, Template.Collection.addIfAbsent_map, taken]
        exact .added
          (.role request.role.display functions (first :: others) request.tagSession
            request.duration)
          admitted rfl (by simp [Step.item?, members, named]) taken rfl rfl

theorem take_effect (toHost : Bool) (p : Pass) (es : Entries Value)
    (stands : p.resources = ⟨.map es⟩) (step : Step) (textual : step.Textual) :
    Effect p es step (p.take toHost step) := by
  cases step with
  | unused group =>
    refine .skipped trivial rfl (by intro item asked; cases asked) ?_ ?_
    · cases toHost <;> exact stands
    · cases toHost <;> rfl
  | permission group function principal =>
    obtain ⟨id, rfl⟩ := textual
    exact addPermission_effect p es stands group id principal
  | role request =>
    obtain ⟨ids, members⟩ := textual
    exact addRole_effect p es stands request _ members
  | refuse fault => exact .stopped (fun admitted => admitted) (by simp [take, Progress.stop]) stands rfl

end Pass

theorem askedNames_cons (step : Step) (rest : List Step) :
    askedNames (step :: rest) = askedNames [step] ++ askedNames rest := by
  simp only [askedNames, ← List.map_append, ← List.filterMap_append, List.singleton_append]

theorem Step.Admitted.mono {step : Step} {taken fewer : List String}
    (admitted : step.Admitted taken) (subset : ∀ name ∈ fewer, name ∈ taken) :
    step.Admitted fewer := by
  cases step with
  | role request => exact ⟨fun used => admitted.1 (subset _ used), admitted.2⟩
  | refuse fault => exact admitted
  | _ => trivial

theorem Admitted.mono {steps : List Step} {taken fewer : List String}
    (admitted : Admitted taken steps) (subset : ∀ name ∈ fewer, name ∈ taken) :
    Admitted fewer steps := by
  induction steps generalizing taken fewer with
  | nil => trivial
  | cons step rest ih =>
    refine ⟨admitted.1.mono subset, ih admitted.2 ?_⟩
    intro name member
    rw [List.mem_append] at member ⊢
    exact member.imp_left (subset name)

theorem admitted_append (taken : List String) (before after : List Step) :
    Admitted taken (before ++ after) ↔
      Admitted taken before ∧ Admitted (taken ++ askedNames before) after := by
  induction before generalizing taken with
  | nil => simp [Admitted, askedNames]
  | cons step rest ih =>
    rw [List.cons_append, Admitted, Admitted, ih, askedNames_cons step rest, List.append_assoc,
      and_assoc]

/-- What a run of a pass over a mapping has done: it has completed the steps `before` and added
their fresh items, and it was stopped at the first step of `rest`, if there is one. -/
structure Emission (p : Pass) (es : Entries Value) (steps : List Step) (run : Progress Pass Fault)
    (before rest : List Step) : Prop where
  steps_eq : steps = before ++ rest
  admitted : Admitted es.names before
  resources : run.reached.resources = ⟨.map (es ++ Entries.ofNamed
    (linked p.chain (fresh es.names (before.filterMap Step.item?))))⟩
  complete : run.fault? = none ↔ rest = []
  refused : ∀ step after, rest = step :: after → ¬ step.Admitted (es.names ++ askedNames before)

theorem Emission.skipped {p q : Pass} {es : Entries Value} {step : Step}
    {steps before rest : List Step} {run : Progress Pass Fault}
    (tail : Emission q es steps run before rest) (admitted : step.Admitted es.names)
    (taken : ∀ item, step.item? = some item → item.name ∈ es.names) (chain : q.chain = p.chain) :
    Emission p es (step :: steps) run (step :: before) rest := by
  have nothing : ∀ name ∈ askedNames [step], name ∈ es.names := by
    intro name member
    obtain ⟨item, asked, same⟩ : ∃ item, step.item? = some item ∧ item.name = name := by
      simpa [askedNames] using member
    exact same ▸ taken item asked
  refine ⟨by rw [tail.steps_eq]; rfl, ⟨admitted, ?_⟩, ?_, tail.complete, ?_⟩
  · apply tail.admitted.mono
    intro name member
    rw [List.mem_append] at member
    exact member.elim id (nothing name)
  · rw [tail.resources, chain, List.filterMap_cons]
    cases asked : step.item? with
    | none => rfl
    | some item => simp only [fresh, taken item asked, ↓reduceIte]
  · intro last after split possible
    apply tail.refused last after split
    apply possible.mono
    intro name member
    rw [askedNames_cons step before]
    simp only [List.mem_append] at member ⊢
    exact member.imp_right Or.inr

theorem Emission.added {p q : Pass} {es : Entries Value} {step : Step}
    {steps before rest : List Step} {run : Progress Pass Fault} {item : Item}
    (tail : Emission q (es ++ [(.text item.name, item.resource (item.previous p.chain))]) steps run
      before rest)
    (admitted : step.Admitted es.names) (asked : step.item? = some item)
    (free : item.name ∉ es.names) (chain : q.chain = item.advance p.chain) :
    Emission p es (step :: steps) run (step :: before) rest := by
  have name : askedNames [step] = [item.name] := by simp [askedNames, asked]
  have names : Entries.names (es ++ [(.text item.name, item.resource (item.previous p.chain))]) =
      es.names ++ askedNames [step] := by
    simp [name]
  refine ⟨by rw [tail.steps_eq]; rfl, ⟨admitted, ?_⟩, ?_, tail.complete, ?_⟩
  · rw [← names]
    exact tail.admitted
  · rw [tail.resources, chain, List.filterMap_cons, asked, names, name]
    simp only [fresh, free, ↓reduceIte, linked, Entries.ofNamed_cons, List.append_assoc,
      List.singleton_append]
  · intro last after split
    rw [askedNames_cons step before, ← List.append_assoc, ← names]
    exact tail.refused last after split

/-- Every run of a pass over a mapping, failing or not, is told by the steps it completes. -/
theorem walk_emission (toHost : Bool) (steps : List Step) (p : Pass) (es : Entries Value)
    (stands : p.resources = ⟨.map es⟩) (textual : ∀ step ∈ steps, step.Textual) :
    ∃ before rest, Emission p es steps (Progress.walk (Pass.take toHost) p steps) before rest := by
  induction steps generalizing p es with
  | nil =>
    refine ⟨[], [], rfl, trivial, ?_, by simp [Progress.done], by simp⟩
    simpa [Progress.done, fresh, linked] using stands
  | cons step rest ih =>
    have later : ∀ next ∈ rest, next.Textual :=
      fun next member => textual next (List.mem_cons_of_mem _ member)
    rw [Progress.walk_cons]
    cases Pass.take_effect toHost p es stands step (textual step List.mem_cons_self) with
    | stopped refused fault resources chain =>
      rw [Progress.andThen_of_stopped _ fault]
      refine ⟨[], step :: rest, rfl, trivial, ?_, by simp [fault], ?_⟩
      · simpa [fresh, linked] using resources
      · rintro last after ⟨rfl, rfl⟩
        simpa [askedNames] using refused
    | skipped admitted fault taken resources chain =>
      rw [Progress.andThen_of_ok _ fault]
      obtain ⟨before, after, tail⟩ := ih (p.take toHost step).reached es resources later
      exact ⟨step :: before, after, tail.skipped admitted taken chain⟩
    | added item admitted fault asked free resources chain =>
      rw [Progress.andThen_of_ok _ fault]
      obtain ⟨before, after, tail⟩ := ih (p.take toHost step).reached _ resources later
      exact ⟨step :: before, after, tail.added admitted asked free chain⟩

theorem Emission.complete_iff {p : Pass} {es : Entries Value} {steps before rest : List Step}
    {run : Progress Pass Fault} (emission : Emission p es steps run before rest) :
    run.fault? = none ↔ Admitted es.names steps := by
  rw [emission.complete]
  constructor
  · intro all
    have whole : steps = before := by rw [emission.steps_eq, all, List.append_nil]
    rw [whole]
    exact emission.admitted
  · intro admitted
    cases remaining : rest with
    | nil => rfl
    | cons step after =>
      rw [emission.steps_eq, remaining, admitted_append] at admitted
      exact absurd admitted.2.1 (emission.refused step after remaining)

end AccessGroups

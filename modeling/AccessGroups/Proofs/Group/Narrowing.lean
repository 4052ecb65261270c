import AccessGroups.Proofs.Group.Request

/-!
Narrowing groups to one function. A narrowed group asks for the permissions of that function and for
the same roles on that function alone, or for nothing once no function is left. So what can be done
for the groups can be done for the narrowed ones, and where no other item takes the name of one of the
function's permissions, the added permissions of the function are the same.
-/

set_option autoImplicit false

namespace AccessGroups

theorem askedNames_singleton (step : Step) :
    askedNames [step] = (step.item?.map Item.name).toList := by
  cases asked : step.item? <;> simp [askedNames, asked]

/-- Steps that can be taken wherever the others can, and that take no other names. -/
structure Lighter (few steps : List Step) : Prop where
  admitted : ∀ taken, Admitted taken steps → Admitted taken few
  names : ∀ name ∈ askedNames few, name ∈ askedNames steps

namespace Lighter

theorem refl (steps : List Step) : Lighter steps steps :=
  ⟨fun _ admitted => admitted, fun _ member => member⟩

theorem append {few steps more rest : List Step} (first : Lighter few steps)
    (second : Lighter more rest) : Lighter (few ++ more) (steps ++ rest) := by
  constructor
  · intro taken admitted
    rw [admitted_append] at admitted ⊢
    refine ⟨first.admitted taken admitted.1, second.admitted _ (admitted.2.mono ?_)⟩
    intro name member
    rw [List.mem_append] at member ⊢
    exact member.imp_right (first.names name)
  · intro name member
    simp only [askedNames, List.filterMap_append, List.map_append, List.mem_append] at member ⊢
    exact member.imp (first.names name) (second.names name)

theorem flatMap {α : Type} {xs : List α} {f g : α → List Step}
    (each : ∀ x ∈ xs, Lighter (f x) (g x)) : Lighter (xs.flatMap f) (xs.flatMap g) := by
  induction xs with
  | nil => exact refl []
  | cons x rest ih =>
    rw [List.flatMap_cons, List.flatMap_cons]
    exact (each x List.mem_cons_self).append
      (ih fun y member => each y (List.mem_cons_of_mem _ member))

theorem map {α : Type} {xs : List α} {f g : α → Step}
    (each : ∀ x ∈ xs, Lighter [f x] [g x]) : Lighter (xs.map f) (xs.map g) := by
  rw [List.map_eq_flatMap, List.map_eq_flatMap]
  exact flatMap each

theorem admitted_permissions (taken : List String) (group : Value) (principal : Principal)
    (functions : List Value) :
    Admitted taken (functions.map fun function => .permission group function principal) := by
  induction functions generalizing taken with
  | nil => trivial
  | cons function rest ih => exact ⟨trivial, ih _⟩

/-- Permissions are always admitted, so fewer of them are lighter. -/
theorem permissions (group : Value) (principal : Principal) {few functions : List Value}
    (subset : ∀ function ∈ few, function ∈ functions) :
    Lighter (few.map fun function => .permission group function principal)
      (functions.map fun function => .permission group function principal) := by
  constructor
  · exact fun taken _ => admitted_permissions taken group principal few
  · intro name member
    simp only [askedNames, List.filterMap_map, List.mem_map, List.mem_filterMap,
      Function.comp_apply] at member ⊢
    obtain ⟨item, ⟨function, among, asked⟩, named⟩ := member
    exact ⟨item, ⟨function, subset function among, asked⟩, named⟩

end Lighter

def isFor (id : String) (function : Value) : Bool := Value.same function (.text id)

theorem isFor_eq (id : String) (function : Value) (principal : Principal) :
    isFor id function = (Item.permission function principal).isPermissionOf id := by
  rw [Bool.eq_iff_iff, isFor, Value.same_text_iff, Item.isPermissionOf_iff]
  simp

/-- A role is asked for on one function only. -/
def Step.narrow (id : String) : Step → Step
  | .role request => .role { request with functions := request.functions.map (·.filter (isFor id)) }
  | step => step

theorem Step.narrow_lighter (id : String) (step : Step) : Lighter [step.narrow id] [step] := by
  cases step with
  | role request =>
    have named : (Step.narrow id (.role request)).item?.map Item.name =
        (Step.role request).item?.map Item.name := by
      simp only [Step.narrow, Step.item?]
      cases request.functions with
      | error misuse => rfl
      | ok functions =>
        cases request.principals with
        | error fault => rfl
        | ok principals => cases principals <;> rfl
    refine ⟨fun taken admitted => ⟨admitted.1, trivial⟩, ?_⟩
    rw [askedNames_singleton, askedNames_singleton, named]
    exact fun name member => member
  | _ => exact Lighter.refl _

namespace ResolvedGroup

def narrow (id : String) (g : ResolvedGroup) : ResolvedGroup :=
  { g with functions := g.functions.map (·.filter (isFor id)) }

theorem ids_narrow (id : String) (g : ResolvedGroup) :
    (g.narrow id).ids = g.ids.filter (isFor id) := by
  obtain ⟨name, functions, policy, role⟩ := g
  cases functions <;> rfl

theorem principalSteps_narrow (id : String) (g : ResolvedGroup) (raw : Value) :
    Lighter ((g.narrow id).principalSteps raw) (g.principalSteps raw) := by
  obtain ⟨name, functions, policy, role⟩ := g
  unfold principalSteps narrow
  cases Principal.ofValue raw with
  | error fault => exact Lighter.refl _
  | ok principal =>
    cases functions with
    | error misuse => exact Lighter.refl _
    | ok functions =>
      apply Lighter.permissions
      intro function member
      exact (List.mem_filter.mp member).1

theorem policySteps_narrow (id : String) (g : ResolvedGroup) :
    Lighter (g.narrow id).policySteps g.policySteps := by
  have policy : (g.narrow id).policy = g.policy := rfl
  have name : (g.narrow id).name = g.name := rfl
  unfold policySteps
  rw [policy, name]
  split
  · exact Lighter.refl _
  · split
    · exact Lighter.refl _
    · exact Lighter.flatMap fun raw _ => principalSteps_narrow id g raw

theorem roleStep_narrow (id : String) (g : ResolvedGroup) (directive : Value) :
    (g.narrow id).roleStep directive = (g.roleStep directive).narrow id := by
  cases directive with
  | map es =>
    simp only [roleStep]
    split
    · rfl
    · cases given? (.map es) "principals" <;> rfl
  | _ => rfl

theorem isUsed_of_narrow {id : String} {g : ResolvedGroup} (left : (g.narrow id).isUsed = true) :
    g.isUsed = true := by
  obtain ⟨name, functions, policy, role⟩ := g
  cases functions with
  | error misuse => rfl
  | ok functions =>
    cases functions with
    | nil => exact left
    | cons function rest => rfl

theorem steps_narrow (id : String) (g : ResolvedGroup) : Lighter (g.narrow id).steps g.steps := by
  unfold steps
  by_cases left : (g.narrow id).isUsed = true
  · rw [if_pos left, if_pos (isUsed_of_narrow left)]
    apply (policySteps_narrow id g).append
    apply Lighter.map
    intro directive _
    rw [roleStep_narrow]
    exact Step.narrow_lighter id _
  · rw [if_neg left]
    refine ⟨fun taken _ => ⟨trivial, trivial⟩, ?_⟩
    intro name member
    cases member

theorem policyItems_of_no_ids {g : ResolvedGroup} (none : g.ids = []) : g.policyItems = [] := by
  unfold policyItems
  rw [List.flatMap_eq_nil_iff]
  intro raw _
  rw [none]
  cases Principal.ofValue raw <;> rfl

theorem filter_items (id : String) (g : ResolvedGroup) :
    g.items.filter (Item.isPermissionOf id) =
      g.policyPrincipals.flatMap fun raw =>
        match Principal.ofValue raw with
        | .ok principal => (g.ids.filter (isFor id)).map fun function => .permission function principal
        | .error _ => [] := by
  have roles : g.roleItems.filter (Item.isPermissionOf id) = [] := by
    rw [List.filter_eq_nil_iff]
    intro item member
    obtain ⟨directive, -, asked⟩ := List.mem_filterMap.mp member
    unfold roleItem? at asked
    split at asked
    · cases asked
      simp [Item.isPermissionOf]
    · cases asked
  have policy : g.policyItems.filter (Item.isPermissionOf id) =
      g.policyPrincipals.flatMap fun raw =>
        match Principal.ofValue raw with
        | .ok principal => (g.ids.filter (isFor id)).map fun function => .permission function principal
        | .error _ => [] := by
    unfold policyItems
    rw [List.filter_flatMap]
    apply List.flatMap_congr
    intro raw _
    cases Principal.ofValue raw with
    | error fault => rfl
    | ok principal =>
      simp only [List.filter_map]
      congr 2
      funext function
      exact (isFor_eq id function principal).symm
  unfold items
  split
  · rename_i empty
    rw [← policy, policyItems_of_no_ids (List.isEmpty_iff.mp empty)]
  · rw [List.filter_append, roles, List.append_nil, policy]

theorem filter_items_narrow (id : String) (g : ResolvedGroup) :
    (g.narrow id).items.filter (Item.isPermissionOf id) =
      g.items.filter (Item.isPermissionOf id) := by
  have principals : (g.narrow id).policyPrincipals = g.policyPrincipals := rfl
  rw [filter_items, filter_items, principals, ids_narrow, List.filter_filter]
  simp only [Bool.and_self]

end ResolvedGroup

theorem plan_narrow (id : String) (groups : List ResolvedGroup) :
    Lighter (plan (groups.map (ResolvedGroup.narrow id))) (plan groups) := by
  unfold plan
  rw [List.flatMap_map]
  exact Lighter.flatMap fun g _ => g.steps_narrow id

theorem filter_items_narrowed (id : String) (groups : List ResolvedGroup) :
    (items (groups.map (ResolvedGroup.narrow id))).filter (Item.isPermissionOf id) =
      (items groups).filter (Item.isPermissionOf id) := by
  unfold items
  rw [List.flatMap_map, List.filter_flatMap, List.filter_flatMap]
  exact List.flatMap_congr fun g _ => g.filter_items_narrow id

/-- Taken names that no item has do not matter. -/
theorem fresh_congr {taken others : List String} {items : List Item}
    (same : ∀ item ∈ items, item.name ∈ taken ↔ item.name ∈ others) :
    fresh taken items = fresh others items := by
  induction items generalizing taken others with
  | nil => rfl
  | cons item rest ih =>
    have later : ∀ next ∈ rest, next.name ∈ taken ↔ next.name ∈ others :=
      fun next member => same next (List.mem_cons_of_mem _ member)
    have here := same item List.mem_cons_self
    unfold fresh
    by_cases used : item.name ∈ taken
    · rw [if_pos used, if_pos (here.mp used), ih later]
    · rw [if_neg used, if_neg fun again => used (here.mpr again)]
      congr 1
      apply ih
      intro next member
      rw [List.mem_append, List.mem_append, later next member]

/-- Where no other item takes their names, selected items are fresh as they are on their own. -/
theorem filter_fresh (selected : Item → Bool) (taken : List String) {items : List Item}
    (apart : ∀ item ∈ items, selected item = true → ∀ other ∈ items, selected other = false →
      item.name ≠ other.name) :
    (fresh taken items).filter selected = fresh taken (items.filter selected) := by
  induction items generalizing taken with
  | nil => rfl
  | cons item rest ih =>
    have later : ∀ next ∈ rest, selected next = true → ∀ other ∈ rest, selected other = false →
        next.name ≠ other.name := fun next member chosen other among =>
      apart next (List.mem_cons_of_mem _ member) chosen other (List.mem_cons_of_mem _ among)
    rw [fresh, List.filter_cons]
    by_cases chosen : selected item = true
    · rw [if_pos chosen, fresh]
      split
      · exact ih taken later
      · rw [List.filter_cons, if_pos chosen, ih _ later]
    · rw [if_neg chosen]
      split
      · exact ih taken later
      · rw [List.filter_cons, if_neg chosen, ih _ later]
        -- The name that is taken now is that of no selected item.
        apply fresh_congr
        intro next member
        obtain ⟨among, wanted⟩ := List.mem_filter.mp member
        have different := apart next (List.mem_cons_of_mem _ among) wanted item List.mem_cons_self
          (Bool.not_eq_true _ ▸ chosen)
        simp [different]

theorem permissionsOf_linked (id : String) {chain others : Entries String} {items : List Item}
    (textual : ∀ item ∈ items, item.Textual)
    (same : Entries.get? chain (.text id) = Entries.get? others (.text id)) :
    permissionsOf id (linked chain items) =
      linked others (items.filter (Item.isPermissionOf id)) := by
  unfold permissionsOf
  induction items generalizing chain others with
  | nil => rfl
  | cons item rest ih =>
    have here := textual item List.mem_cons_self
    have later : ∀ next ∈ rest, next.Textual :=
      fun next member => textual next (List.mem_cons_of_mem _ member)
    have permitted := Item.permitted?_resource item here (item.previous chain) id
    rw [linked, List.filter_cons, List.filter_cons]
    by_cases chosen : item.isPermissionOf id = true
    · rw [if_pos (by rw [beq_iff_eq]; exact permitted.mpr chosen), if_pos chosen, linked]
      obtain ⟨principal, rfl⟩ := (Item.isPermissionOf_iff id item).mp chosen
      have previous : (Item.permission (.text id) principal).previous chain =
          (Item.permission (.text id) principal).previous others := same
      rw [previous, ih later]
      rw [Item.get?_advance _ _ here, Item.get?_advance _ _ here, same]
    · rw [if_neg (by rw [beq_iff_eq]; exact fun is => chosen (permitted.mp is)), if_neg chosen]
      apply ih later
      rw [Item.get?_advance _ _ here, if_neg chosen, same]

end AccessGroups

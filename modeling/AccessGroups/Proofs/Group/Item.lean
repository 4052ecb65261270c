import AccessGroups.Group.Pass
import AccessGroups.Proofs.Template.Reading

/-!
Items: the resources that a plan asks for. Of several items with one name only the first is added, and
none whose name is taken; the added permissions of one function are linked, each to the one added
before it. Both are said here of lists of items alone, without a pass.
-/

set_option autoImplicit false

namespace AccessGroups

/-- A resource that a plan asks for, before it is known what it is created after. -/
inductive Item where
  | permission (function : Value) (principal : Principal)
  | role (name : String) (functions : List Value) (principals : List Principal) (tagSession : Bool)
    (duration : Value)

namespace Item

def name : Item → String
  | .permission function principal => Identifier.permissionName function.display principal
  | .role name .. => Identifier.roleResourceName name

/-- The resource, created after the one that is named, if one is. -/
def resource (item : Item) (previous : Option String) : Value :=
  match item with
  | .permission function principal =>
    Template.permission function principal ((previous.map .text).getD .null)
  | .role name functions principals tagSession duration =>
    Template.role name functions principals tagSession duration

/-- What an item is created after: for each function `chain` has the name of its last permission. -/
def previous (chain : Entries String) : Item → Option String
  | .permission function _ => Entries.get? chain function
  | .role .. => none

def advance (chain : Entries String) (item : Item) : Entries String :=
  match item with
  | .permission function _ => Entries.put chain function item.name
  | .role .. => chain

def Textual : Item → Prop
  | .permission function _ => ∃ id, function = .text id
  | .role .. => True

def isPermissionOf (id : String) : Item → Bool
  | .permission (.text other) _ => other == id
  | _ => false

theorem permissionName_ne_empty (id : String) (principal : Principal) :
    Identifier.permissionName id principal ≠ "" := by
  intro empty
  have characters := congrArg String.length empty
  simp only [Identifier.permissionName, String.length_append] at characters
  have fixed : "PermitInvokeFrom".length = 16 := by decide
  have none : "".length = 0 := by decide
  omega

theorem isPermissionOf_iff (id : String) (item : Item) :
    item.isPermissionOf id = true ↔ ∃ principal, item = .permission (.text id) principal := by
  cases item with
  | permission function principal =>
    cases function <;> simp [isPermissionOf]
  | role => simp [isPermissionOf]

/-- The resource of an item is a permission of a function just when the item is. -/
theorem permitted?_resource (item : Item) (textual : item.Textual) (previous : Option String)
    (id : String) :
    Template.permitted? (item.resource previous) = some id ↔ item.isPermissionOf id = true := by
  cases item with
  | permission function principal =>
    obtain ⟨other, rfl⟩ := textual
    simp [resource, isPermissionOf]
  | role => simp [resource, isPermissionOf]

theorem get?_advance (chain : Entries String) (item : Item) (textual : item.Textual) (id : String) :
    Entries.get? (item.advance chain) (.text id) =
      if item.isPermissionOf id then some item.name else Entries.get? chain (.text id) := by
  cases item with
  | permission function principal =>
    obtain ⟨other, rfl⟩ := textual
    simp only [advance, Entries.get?_put_text, isPermissionOf, beq_iff_eq]
  | role => simp [advance, isPermissionOf]

theorem dependsOn?_resource (chain : Entries String) (item : Item) (id : String)
    (permission : item.isPermissionOf id = true)
    (named : ∀ name, Entries.get? chain (.text id) = some name → name ≠ "") :
    Template.dependsOn? (item.resource (item.previous chain)) =
      (Entries.get? chain (.text id)).map .text := by
  obtain ⟨principal, rfl⟩ := (isPermissionOf_iff id item).mp permission
  simp only [resource, previous, Template.dependsOn?_permission]
  cases last : Entries.get? chain (.text id) with
  | none => rfl
  | some name =>
    have nonempty := named name last
    simp [Value.truthy, nonempty]

end Item

/-- The items of which the names are free: of several with one name the first. -/
def fresh (taken : List String) : List Item → List Item
  | [] => []
  | item :: rest =>
    if item.name ∈ taken then fresh taken rest
    else item :: fresh (taken ++ [item.name]) rest

/-- The named resources of items that are added one after another. -/
def linked (chain : Entries String) : List Item → List (String × Value)
  | [] => []
  | item :: rest =>
    (item.name, item.resource (item.previous chain)) :: linked (item.advance chain) rest

def permissionsOf (id : String) (added : List (String × Value)) : List (String × Value) :=
  added.filter fun e => Template.permitted? e.2 == some id

theorem fresh_sublist (taken : List String) (items : List Item) :
    (fresh taken items).Sublist items := by
  induction items generalizing taken with
  | nil => exact .slnil
  | cons item rest ih =>
    unfold fresh
    split
    · exact (ih taken).cons item
    · exact (ih _).cons_cons item

theorem not_mem_taken_of_fresh {taken : List String} {items : List Item} {item : Item}
    (member : item ∈ fresh taken items) : item.name ∉ taken := by
  induction items generalizing taken with
  | nil => cases member
  | cons first rest ih =>
    unfold fresh at member
    split at member
    · exact ih member
    · rename_i free
      rcases List.mem_cons.mp member with rfl | later
      · exact free
      · intro used
        exact ih later (List.mem_append_left _ used)

theorem has_of_fresh {es : Entries Value} {items : List Item} {item : Item}
    (member : item ∈ fresh es.names items) : es.has (.text item.name) = false := by
  rw [Bool.eq_false_iff, ne_eq, Entries.has_text_iff]
  exact not_mem_taken_of_fresh member

theorem nodup_names_fresh (taken : List String) (items : List Item) :
    ((fresh taken items).map Item.name).Nodup := by
  induction items generalizing taken with
  | nil => exact List.nodup_nil
  | cons item rest ih =>
    unfold fresh
    split
    · exact ih taken
    · rw [List.map_cons, List.nodup_cons]
      refine ⟨?_, ih _⟩
      intro again
      obtain ⟨other, member, same⟩ := List.mem_map.mp again
      apply not_mem_taken_of_fresh member
      simp [same]

/-- The names of fresh items are the free names in order of first occurrence. -/
theorem names_fresh (taken : List String) (items : List Item) :
    (fresh taken items).map Item.name =
      ((items.map Item.name).filter fun name => decide (name ∉ taken)).eraseDups := by
  induction items generalizing taken with
  | nil => rfl
  | cons item rest ih =>
    unfold fresh
    split
    · rename_i used
      simp only [ih, List.map_cons, List.filter_cons, used, not_true_eq_false, decide_false,
        Bool.false_eq_true, ↓reduceIte]
    · rename_i free
      simp only [List.map_cons, List.filter_cons, free, not_false_eq_true, decide_true, ↓reduceIte,
        List.eraseDups_cons, ih, List.filter_filter]
      congr 3
      funext name
      by_cases same : name = item.name <;> simp [same]

/-- The name of every item is taken or is that of a fresh one. -/
theorem exists_fresh_of_mem (taken : List String) {items : List Item} {item : Item}
    (member : item ∈ items) :
    item.name ∈ taken ∨ ∃ other ∈ fresh taken items, other.name = item.name := by
  by_cases used : item.name ∈ taken
  · exact Or.inl used
  · have named : item.name ∈ (fresh taken items).map Item.name := by
      rw [names_fresh, List.mem_eraseDups, List.mem_filter, decide_eq_true_iff]
      exact ⟨List.mem_map_of_mem member, used⟩
    exact Or.inr (List.mem_map.mp named)

/-- A fresh item is the first of all items with its name. -/
theorem find?_of_fresh {taken : List String} {items : List Item} {item : Item}
    (member : item ∈ fresh taken items) :
    items.find? (fun other => other.name == item.name) = some item := by
  induction items generalizing taken with
  | nil => cases member
  | cons first rest ih =>
    unfold fresh at member
    split at member
    · rename_i used
      have free := not_mem_taken_of_fresh member
      have other : first.name ≠ item.name := fun same => free (same ▸ used)
      simp only [List.find?_cons, beq_eq_false_iff_ne.mpr other]
      exact ih member
    · rcases List.mem_cons.mp member with rfl | later
      · simp only [List.find?_cons, beq_self_eq_true]
      · have free := not_mem_taken_of_fresh later
        have other : first.name ≠ item.name := fun same => free (by simp [same])
        simp only [List.find?_cons, beq_eq_false_iff_ne.mpr other]
        exact ih later

theorem names_linked (chain : Entries String) (items : List Item) :
    (linked chain items).map Prod.fst = items.map Item.name := by
  induction items generalizing chain with
  | nil => rfl
  | cons item rest ih => simp only [linked, List.map_cons, ih]

theorem mem_linked {chain : Entries String} {items : List Item} {name : String} {resource : Value}
    (member : (name, resource) ∈ linked chain items) :
    ∃ item ∈ items, ∃ previous, name = item.name ∧ resource = item.resource previous := by
  induction items generalizing chain with
  | nil => cases member
  | cons item rest ih =>
    rcases List.mem_cons.mp member with here | later
    · cases here
      exact ⟨item, List.mem_cons_self, _, rfl, rfl⟩
    · obtain ⟨other, among, previous, same⟩ := ih later
      exact ⟨other, List.mem_cons_of_mem _ among, previous, same⟩

end AccessGroups

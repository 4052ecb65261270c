import AccessGroups.Proofs.Group.Request
import Mathlib.Data.List.Nodup

/-!
The chain of permissions. The permissions that a pass adds for one function stand in one line: the
first is created after nothing and each next one after the one before it. So nothing waits for itself,
nothing is waited for twice, and whatever is waited for was added by the same pass before.
-/

set_option autoImplicit false

namespace AccessGroups

theorem permissionsOf_append (id : String) (before after : List (String × Value)) :
    permissionsOf id (before ++ after) = permissionsOf id before ++ permissionsOf id after :=
  List.filter_append ..

theorem permissionsOf_cons (id : String) (e : String × Value) (rest : List (String × Value)) :
    permissionsOf id (e :: rest) =
      if Template.permitted? e.2 = some id then e :: permissionsOf id rest
      else permissionsOf id rest := by
  simp only [permissionsOf, List.filter_cons, beq_iff_eq]

theorem mem_permissionsOf {id : String} {added : List (String × Value)} {e : String × Value} :
    e ∈ permissionsOf id added ↔ e ∈ added ∧ Template.permitted? e.2 = some id := by
  simp only [permissionsOf, List.mem_filter, beq_iff_eq]

/-- Resources added one after another, the dependencies among which form one line per function. -/
structure Chained (added : List (String × Value)) : Prop where
  names : (added.map Prod.fst).Nodup
  /-- A permission depends on the one before it of the same function, and the first on none. -/
  in_line : ∀ id before name resource after,
    permissionsOf id added = before ++ (name, resource) :: after →
    Template.dependsOn? resource = before.getLast?.map fun last => .text last.1
  /-- What a resource depends on was added before it and is a permission of the same function. -/
  earlier : ∀ before name resource after dependency,
    added = before ++ (name, resource) :: after →
    Template.dependsOn? resource = some dependency →
    ∃ other target id, (other, target) ∈ before ∧ dependency = .text other ∧
      Template.permitted? target = some id ∧ Template.permitted? resource = some id
  /-- No two resources depend on the same one. -/
  unshared : ∀ before first between second after dependency,
    added = before ++ first :: (between ++ second :: after) →
    Template.dependsOn? first.2 = some dependency →
    Template.dependsOn? second.2 ≠ some dependency

/-- Last permissions, none of which has the empty name. -/
def Named (chain : Entries String) : Prop :=
  ∀ id name, Entries.get? chain (.text id) = some name → name ≠ ""

theorem named_nil : Named [] := by
  intro id name found
  cases found

theorem Named.advance {chain : Entries String} (named : Named chain) {item : Item}
    (textual : item.Textual) : Named (item.advance chain) := by
  intro id name found
  rw [Item.get?_advance chain item textual] at found
  split at found
  · rename_i permission
    obtain ⟨principal, rfl⟩ := (Item.isPermissionOf_iff id item).mp permission
    cases found
    exact Item.permissionName_ne_empty _ principal
  · exact named id name found

/-- The last permission before the resources of a list, or else the last one in the list. -/
def lastOf (chain : Entries String) (id : String) (added : List (String × Value)) : Option String :=
  ((permissionsOf id added).getLast?.map Prod.fst).or (Entries.get? chain (.text id))

/-- The head of a list counts as a last permission before its tail. -/
theorem lastOf_cons (chain : Entries String) (id : String) (item : Item) (textual : item.Textual)
    (previous : Option String) (rest : List (String × Value)) :
    lastOf chain id ((item.name, item.resource previous) :: rest) =
      lastOf (item.advance chain) id rest := by
  unfold lastOf
  rw [permissionsOf_cons, Item.get?_advance chain item textual]
  by_cases permission : item.isPermissionOf id = true
  · have permitted := (Item.permitted?_resource item textual previous id).mpr permission
    simp only [permitted, permission, ↓reduceIte, List.getLast?_cons]
    cases (permissionsOf id rest).getLast? <;> rfl
  · have other : Template.permitted? (item.resource previous) ≠ some id :=
      fun same => permission ((Item.permitted?_resource item textual previous id).mp same)
    simp only [other, permission, Bool.false_eq_true, ↓reduceIte]

section Linked

variable {items : List Item} (textual : ∀ item ∈ items, item.Textual)

include textual

/-- A linked permission depends on the last permission of its function before it. -/
theorem dependsOn?_linked {chain : Entries String} (named : Named chain)
    {before after : List (String × Value)} {name : String} {resource : Value}
    (split : linked chain items = before ++ (name, resource) :: after) {id : String}
    (permission : Template.permitted? resource = some id) :
    Template.dependsOn? resource = (lastOf chain id before).map .text := by
  induction items generalizing chain before with
  | nil => simp [linked] at split
  | cons item rest ih =>
    have head := textual item List.mem_cons_self
    have tail : ∀ other ∈ rest, other.Textual :=
      fun other member => textual other (List.mem_cons_of_mem _ member)
    cases before with
    | nil =>
      simp only [linked, List.nil_append, List.cons.injEq, Prod.mk.injEq] at split
      obtain ⟨⟨-, rfl⟩, -⟩ := split
      have asked := (Item.permitted?_resource item head _ id).mp permission
      rw [Item.dependsOn?_resource chain item id asked (named id)]
      rfl
    | cons first others =>
      simp only [linked, List.cons_append, List.cons.injEq] at split
      obtain ⟨rfl, split⟩ := split
      rw [ih tail (named.advance head) split, lastOf_cons chain id item head]

theorem permitted?_of_dependsOn? {chain : Entries String} {name : String}
    {resource dependency : Value} (member : (name, resource) ∈ linked chain items)
    (depends : Template.dependsOn? resource = some dependency) :
    ∃ id, Template.permitted? resource = some id := by
  obtain ⟨item, among, previous, -, rfl⟩ := mem_linked member
  have text := textual item among
  cases item with
  | permission function principal =>
    obtain ⟨id, rfl⟩ := text
    exact ⟨id, Template.permitted?_permission id principal _⟩
  | role => simp [Item.resource] at depends

/-- In a list linked from nothing, a permission depends on the last one of its function before it. -/
theorem dependsOn?_of_permitted? {before after : List (String × Value)} {name id : String}
    {resource : Value} (split : linked [] items = before ++ (name, resource) :: after)
    (permission : Template.permitted? resource = some id) :
    Template.dependsOn? resource =
      ((permissionsOf id before).getLast?.map Prod.fst).map .text := by
  rw [dependsOn?_linked textual named_nil split permission, lastOf, Entries.get?_nil, Option.or_none]

/-- Whatever a resource depends on is the last permission of its own function before it. -/
theorem last_of_dependsOn? {before after : List (String × Value)} {name : String}
    {resource dependency : Value} (split : linked [] items = before ++ (name, resource) :: after)
    (depends : Template.dependsOn? resource = some dependency) :
    ∃ id other target, Template.permitted? resource = some id ∧ dependency = .text other ∧
      (permissionsOf id before).getLast? = some (other, target) := by
  have member : (name, resource) ∈ linked [] items := by simp [split]
  obtain ⟨id, permission⟩ := permitted?_of_dependsOn? textual member depends
  rw [dependsOn?_of_permitted? textual split permission] at depends
  obtain ⟨other, last, rfl⟩ := Option.map_eq_some_iff.mp depends
  obtain ⟨⟨_, target⟩, newest, rfl⟩ := Option.map_eq_some_iff.mp last
  exact ⟨id, _, target, permission, rfl, newest⟩

end Linked

/-- An element of a filtered list stands in the list after what precedes it. -/
theorem split_of_permissionsOf {id : String} {added before after : List (String × Value)}
    {e : String × Value} (split : permissionsOf id added = before ++ e :: after) :
    ∃ earlier later, added = earlier ++ e :: later ∧ permissionsOf id earlier = before ∧
      Template.permitted? e.2 = some id := by
  obtain ⟨earlier, others, rfl, same, rest⟩ := List.filter_eq_append_iff.mp split
  obtain ⟨skipped, later, rfl, none, here, -⟩ := List.filter_eq_cons_iff.mp rest
  refine ⟨earlier ++ skipped, later, by simp, ?_, by simpa using here⟩
  rw [permissionsOf_append, permissionsOf, same]
  have nothing : permissionsOf id skipped = [] := List.filter_eq_nil_iff.mpr none
  rw [nothing, List.append_nil]

/-- A permission before which another one of its function was added in between does not follow the
permission that the other one follows. -/
theorem last_changes {before between after : List (String × Value)} {first : String × Value}
    (names : ((before ++ first :: (between ++ after)).map Prod.fst).Nodup) {id name : String}
    (permission : Template.permitted? first.2 = some id)
    (last : (permissionsOf id before).getLast?.map Prod.fst = some name) :
    (permissionsOf id (before ++ first :: between)).getLast?.map Prod.fst ≠ some name := by
  intro again
  rw [permissionsOf_append, permissionsOf_cons, if_pos permission, List.getLast?_append] at again
  obtain ⟨old, found, same⟩ := Option.map_eq_some_iff.mp last
  have early : name ∈ before.map Prod.fst :=
    List.mem_map.mpr ⟨old, (mem_permissionsOf.mp (List.mem_of_getLast? found)).1, same⟩
  obtain ⟨newest, found, same⟩ := Option.map_eq_some_iff.mp again
  have late : name ∈ (first :: (between ++ after)).map Prod.fst := by
    refine List.mem_map.mpr ⟨newest, ?_, same⟩
    have final : (first :: permissionsOf id between).getLast? = some newest := by
      cases final : (first :: permissionsOf id between).getLast? with
      | none => simp at final
      | some other => simpa [final] using found
    rcases List.mem_cons.mp (List.mem_of_getLast? final) with rfl | inside
    · exact List.mem_cons_self
    · exact List.mem_cons_of_mem _ (List.mem_append_left _ (mem_permissionsOf.mp inside).1)
  rw [List.map_append, List.nodup_append] at names
  exact names.2.2 name early name late rfl

/-- Two resources that depend on one permission are permissions of its function, and the second one
would follow the first. -/
theorem unshared_linked {items : List Item} (textual : ∀ item ∈ items, item.Textual)
    (names : ((linked [] items).map Prod.fst).Nodup) {before between after : List (String × Value)}
    {first second : String × Value} {dependency : Value}
    (split : linked [] items = before ++ first :: (between ++ second :: after))
    (depends : Template.dependsOn? first.2 = some dependency) :
    Template.dependsOn? second.2 ≠ some dependency := by
  intro again
  have whole : linked [] items = (before ++ first :: between) ++ second :: after := by
    rw [split, List.append_assoc, List.cons_append]
  obtain ⟨id, other, target, permission, rfl, last⟩ := last_of_dependsOn? textual split depends
  obtain ⟨id', _, target', permission', same, last'⟩ := last_of_dependsOn? textual whole again
  cases same
  have inside := mem_permissionsOf.mp (List.mem_of_getLast? last)
  have inside' := mem_permissionsOf.mp (List.mem_of_getLast? last')
  have one : (other, target) = (other, target') := by
    apply List.inj_on_of_nodup_map names
    · rw [split]
      exact List.mem_append_left _ inside.1
    · rw [whole]
      exact List.mem_append_left _ inside'.1
    · rfl
  obtain rfl : id = id' := by
    have both := inside.2
    rw [one, inside'.2] at both
    exact (Option.some.inj both).symm
  rw [split] at names
  exact last_changes names permission (by rw [last]; rfl) (by rw [last']; rfl)

/-- What is added one after another under names of its own is chained. -/
theorem chained_linked {items : List Item} (textual : ∀ item ∈ items, item.Textual)
    (names : (items.map Item.name).Nodup) : Chained (linked [] items) := by
  have once : ((linked [] items).map Prod.fst).Nodup := by rwa [names_linked]
  refine ⟨once, ?_, ?_, ?_⟩
  · intro id before name resource after split
    obtain ⟨earlier, later, whole, same, permission⟩ := split_of_permissionsOf split
    rw [dependsOn?_of_permitted? textual whole permission, same, Option.map_map]
    rfl
  · intro before name resource after dependency split depends
    obtain ⟨id, other, target, permission, same, last⟩ := last_of_dependsOn? textual split depends
    have inside := mem_permissionsOf.mp (List.mem_of_getLast? last)
    exact ⟨other, target, id, inside.1, same, inside.2, permission⟩
  · intro before first between second after dependency split depends
    exact unshared_linked textual once split depends

/-- Whether a pass over a mapping succeeds or not, what it adds is chained: the permissions of each
function stand in one line, in the order in which they were added. -/
theorem emit_chained (toHost : Bool) (groups : List ResolvedGroup) (es : Entries Value)
    (texts : ∀ g ∈ groups, g.HasTextIds) :
    ∃ added : List (String × Value),
      (emit toHost groups ⟨.map es⟩).reached.resources = ⟨.map (es ++ Entries.ofNamed added)⟩ ∧
      (∀ e ∈ added, es.has (.text e.1) = false) ∧ Chained added := by
  obtain ⟨before, rest, emission⟩ := emit_emission toHost groups es texts
  refine ⟨_, emission.resources, ?_, ?_⟩
  · intro e member
    obtain ⟨item, among, previous, same, -⟩ := mem_linked member
    rw [same]
    exact has_of_fresh among
  · apply chained_linked
    · intro item member
      exact textual_of_mem_before texts emission.steps_eq
        ((fresh_sublist _ _).subset member)
    · exact nodup_names_fresh _ _

theorem emit_chained_sharing :
    (∀ g ∈ sharingGroups, g.HasTextIds) ∧
      ∃ added : List (String × Value),
        (emit true sharingGroups ⟨.map [(.text "Table", .null)]⟩).reached.resources =
          ⟨.map ([(.text "Table", .null)] ++ Entries.ofNamed added)⟩ ∧
        (∀ e ∈ added, Entries.has [(.text "Table", Value.null)] (.text e.1) = false) ∧
        Chained added :=
  ⟨sharingGroups_texts,
    emit_chained true sharingGroups [(.text "Table", .null)] sharingGroups_texts⟩

end AccessGroups

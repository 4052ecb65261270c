import AccessGroups.Proofs.Group.Build
import AccessGroups.Proofs.Group.Growth
import AccessGroups.Proofs.Identifier.LogicalName

/-!
Names that a pass writes. Where all functions are given by logical names, a pass adds its resources under
logical names, and what it lets a resource depend on has one, too: that is always a name under which the pass
has added a permission. A build under the default scheme gives its functions such names.
-/

set_option autoImplicit false

namespace AccessGroups

open Identifier

/-- The entry has a logical name, and so has whatever it is created after. -/
structure LogicallyNamed (entry : String × Value) : Prop where
  name : isLogicalName entry.1 = true
  dependency : ∀ dependency, Template.dependsOn? entry.2 = some dependency →
    ∃ name, dependency = .text name ∧ isLogicalName name = true

namespace Item

/-- A resource depends on what it is created after, and on nothing else. -/
theorem previous_of_dependsOn? {item : Item} {previous : Option String} {dependency : Value}
    (depends : Template.dependsOn? (item.resource previous) = some dependency) :
    ∃ name, previous = some name ∧ dependency = .text name := by
  cases item with
  | permission function principal =>
    rw [resource, Template.dependsOn?_permission] at depends
    cases previous with
    | none => cases depends
    | some name =>
      split at depends
      · exact ⟨name, rfl, (Option.some.inj depends).symm⟩
      · cases depends
  | role => simp [resource] at depends

theorem mem_of_previous {chain : Entries String} {item : Item} {name : String}
    (last : item.previous chain = some name) : ∃ e ∈ chain, e.2 = name := by
  cases item with
  | permission function principal =>
    obtain ⟨key, listed, -⟩ := Entries.mem_of_get?_eq_some last
    exact ⟨_, listed, rfl⟩
  | role => cases last

theorem mem_advance {chain : Entries String} {item : Item} {e : Value × String}
    (listed : e ∈ item.advance chain) : e ∈ chain ∨ e.2 = item.name := by
  cases item with
  | permission function principal => exact Entries.mem_of_mem_put listed
  | role => exact Or.inl listed

end Item

/-- Items with logical names are logically named when they are linked, also after permissions with such
names. -/
theorem logicallyNamed_linked {chain : Entries String} {items : List Item}
    (chained : ∀ e ∈ chain, isLogicalName e.2 = true)
    (named : ∀ item ∈ items, isLogicalName item.name = true) :
    ∀ entry ∈ linked chain items, LogicallyNamed entry := by
  induction items generalizing chain with
  | nil => simp [linked]
  | cons item rest ih =>
    have here := named item List.mem_cons_self
    have advanced : ∀ e ∈ item.advance chain, isLogicalName e.2 = true := by
      intro e listed
      rcases Item.mem_advance listed with before | same
      · exact chained e before
      · rw [same, here]
    intro entry member
    rcases List.mem_cons.mp member with rfl | later
    · refine ⟨here, fun dependency depends => ?_⟩
      obtain ⟨name, last, rfl⟩ := Item.previous_of_dependsOn? depends
      obtain ⟨e, listed, rfl⟩ := Item.mem_of_previous last
      exact ⟨e.2, rfl, chained e listed⟩
    · exact ih advanced (fun other among => named other (List.mem_cons_of_mem _ among)) entry later

namespace ResolvedGroup

def HasLogicalIds (g : ResolvedGroup) : Prop :=
  ∃ ids : List String, (∀ id ∈ ids, isLogicalName id = true) ∧ g.functions = .ok (ids.map .text)

theorem HasLogicalIds.hasTextIds {g : ResolvedGroup} (logical : g.HasLogicalIds) : g.HasTextIds := by
  obtain ⟨ids, -, members⟩ := logical
  exact ⟨ids, members⟩

theorem HasLogicalIds.join {g : ResolvedGroup} (logical : g.HasLogicalIds) {id : String}
    (named : isLogicalName id = true) : (g.join (.text id)).HasLogicalIds := by
  obtain ⟨ids, each, members⟩ := logical
  refine ⟨ids ++ [id], ?_, ?_⟩
  · intro other member
    rcases List.mem_append.mp member with before | last
    · exact each other before
    · rw [List.mem_singleton.mp last, named]
  · simp [ResolvedGroup.join, members, Except.map]

/-- A group of functions with logical names asks for resources under logical names, whatever its principals
and its roles are called. -/
theorem HasLogicalIds.isLogicalName_item {g : ResolvedGroup} (logical : g.HasLogicalIds) {item : Item}
    (member : item ∈ g.items) : isLogicalName item.name = true := by
  cases item with
  | permission function principal =>
    obtain ⟨names, each, members⟩ := logical
    have joined : function ∈ g.ids := (permission_mem_items member).1
    simp only [ids, members] at joined
    obtain ⟨id, among, rfl⟩ := List.mem_map.mp joined
    have named := each id among
    rw [isLogicalName, Bool.and_eq_true] at named
    rw [Item.name, Value.display_text, isLogicalName_permissionName, named.2]
  | role name functions principals tagSession duration => exact isLogicalName_roleResourceName name

end ResolvedGroup

/-- A pass over functions with logical names, whether it succeeds or not, adds logically named entries. -/
theorem emit_logicallyNamed (toHost : Bool) {groups : List ResolvedGroup} (c : Template.Collection)
    (logical : ∀ g ∈ groups, g.HasLogicalIds) :
    ∃ added, c.Gained added (emit toHost groups c).reached.resources ∧
      ∀ entry ∈ added, LogicallyNamed entry := by
  have texts : ∀ g ∈ groups, g.HasTextIds := fun g among => (logical g among).hasTextIds
  by_cases mapping : ∃ es, c = ⟨.map es⟩
  · obtain ⟨es, rfl⟩ := mapping
    obtain ⟨before, rest, emission⟩ := emit_emission toHost groups es texts
    refine ⟨_, emission.gained, logicallyNamed_linked (List.forall_mem_nil _) ?_⟩
    intro item member
    obtain ⟨g, among, inside⟩ :=
      mem_items_of_mem_before texts emission.steps_eq ((fresh_sublist _ _).subset member)
    exact (logical g among).isLogicalName_item inside
  · -- What is no mapping does not grow.
    have grown := emit_grown toHost groups c
    generalize (emit toHost groups c).reached.resources = after at grown
    cases grown with
    | kept => exact ⟨[], .nothing, List.forall_mem_nil _⟩
    | appended es => exact absurd ⟨es, rfl⟩ mapping

/-- Functions whose names hold letters, digits, dashes and underscores only. -/
def SpellableNames (functions : Entries Value) : Prop :=
  ∀ function ∈ functions, ∃ name : String, function.1 = .text name ∧
    name.toList.all isFunctionNameChar = true

/-- The default scheme gives every group functions with logical names, whether the memberships are resolved
or not. -/
theorem resolve_logicalIds {functions : Entries Value} (spellable : SpellableNames functions)
    (groups : Entries Value) :
    (resolve defaultScheme (.map groups) (.map functions)).reached.All
      ResolvedGroup.HasLogicalIds := by
  apply resolve_all
  · intro group _
    exact ⟨[], List.forall_mem_nil _, rfl⟩
  · rintro listed ⟨rfl⟩ function member id named g logical
    obtain ⟨name, key, parts⟩ := spellable function member
    rw [key] at named
    cases named
    exact logical.join (isLogicalName_logicalId parts)

/-- Where the names of the functions hold letters, digits, dashes and underscores only, a build under the
default scheme, whether it succeeds or not, adds logically named entries to whatever collection it starts
from. It makes no difference how principals, roles and groups are called. -/
theorem build_logicallyNamed (toHost : Bool) (groups functions : Entries Value)
    (c : Template.Collection) (spellable : SpellableNames functions) :
    ∃ added : List (String × Value),
      c.Gained added
        (build defaultScheme toHost (.map groups) (.map functions) c).reached.resources ∧
      ∀ entry ∈ added, LogicallyNamed entry := by
  by_cases resolved : (resolve defaultScheme (.map groups) (.map functions)).fault? = none
  · rw [(build_of_roster defaultScheme toHost c resolved).1]
    apply emit_logicallyNamed
    intro g member
    obtain ⟨e, listed, rfl⟩ := List.mem_map.mp member
    exact resolve_logicalIds spellable groups e listed
  · rw [(build_of_unresolved defaultScheme toHost c resolved).1]
    exact ⟨[], .nothing, List.forall_mem_nil _⟩

/-- A group with principals and roles whose texts hold letters beyond ASCII, punctuation and nested values.
The principal of its last role cannot be read. -/
def motleyGroups : Entries Value :=
  [(.text "Gäste", .object
    [("policy", .object [("principals", .list
        [.text "arn:aws:iam::111111111111:user/Zoë_ß-x",
          .object [("Fn::Join", .list
            [.text "_", .list [.text "a-b", .object [("Ref", .text "Ä")], .null, .int (-7)]])]])]),
      ("role", .list
        [.object [("name", .text "größe: _ops"), ("principals", .text "444444444444")],
          .object [("name", .text "--"), ("principals", .bool true)]])])]

def motleyFunctions : Entries Value :=
  [(.text "-", .object [("allowAccess", .text "Gäste")]),
    (.text "my-Function_1", .object [("allowAccess", .list [.text "Gäste", .text "Gäste"])])]

def motleyNames : List String :=
  ["DashLambdaFunctionPermitInvokeFromArnAwsIam111111111111UserZoX",
    "MyDashFunctionUnderscore1LambdaFunctionPermitInvokeFromArnAwsIam111111111111UserZoX",
    "DashLambdaFunctionPermitInvokeFromABObjectObject7",
    "MyDashFunctionUnderscore1LambdaFunctionPermitInvokeFromABObjectObject7", "LambdaAccessRoleGrEops"]

/-- The build is stopped at the last role; until then it has added five resources beside one whose name is
no logical name. -/
theorem build_logicallyNamed_motley :
    SpellableNames motleyFunctions ∧
      (build defaultScheme true (.map motleyGroups) (.map motleyFunctions)
        ⟨.map [(.text "my table", .null)]⟩).fault? = some (.config (.badPrincipal (.bool true))) ∧
      ∃ added : List (String × Value),
        Template.Collection.Gained ⟨.map [(.text "my table", .null)]⟩ added
          (build defaultScheme true (.map motleyGroups) (.map motleyFunctions)
            ⟨.map [(.text "my table", .null)]⟩).reached.resources ∧
        (∀ entry ∈ added, LogicallyNamed entry) ∧
        added.map Prod.fst = motleyNames := by
  have spellable : SpellableNames motleyFunctions := by
    intro function member
    simp only [motleyFunctions, List.mem_cons, List.not_mem_nil, or_false] at member
    rcases member with rfl | rfl
    · exact ⟨"-", rfl, by decide⟩
    · exact ⟨"my-Function_1", rfl, by decide⟩
  obtain ⟨added, gained, named⟩ :=
    build_logicallyNamed true motleyGroups motleyFunctions ⟨.map [(.text "my table", .null)]⟩ spellable
  refine ⟨spellable, rfl, added, gained, named, ?_⟩
  have names : (build defaultScheme true (.map motleyGroups) (.map motleyFunctions)
      ⟨.map [(.text "my table", .null)]⟩).reached.resources.names =
        .ok (.text "my table" :: motleyNames.map .text) := rfl
  generalize (build defaultScheme true (.map motleyGroups) (.map motleyFunctions)
    ⟨.map [(.text "my table", .null)]⟩).reached.resources = after at gained names
  cases gained with
  | nothing => cases names
  | entries es added stands free once =>
    cases stands
    change Except.ok (.text "my table" :: (Entries.ofNamed added).map Prod.fst) = _ at names
    have texts : (added.map Prod.fst).map Value.text = motleyNames.map .text := by
      rw [← (List.cons.inj (Except.ok.inj names)).2, List.map_map, Entries.ofNamed, List.map_map]
      rfl
    exact List.map_injective_iff.mpr (fun _ _ same => Value.text.inj same) texts

end AccessGroups

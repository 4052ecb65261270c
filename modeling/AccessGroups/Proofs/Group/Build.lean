import AccessGroups.Proofs.Group.Request
import AccessGroups.Proofs.Group.Resolution

/-!
Builds: resolving memberships and then emitting. A build whose memberships cannot be resolved leaves
the resources as they are; any other does what the emission of the resolved groups does.
-/

set_option autoImplicit false

namespace AccessGroups

def Identifier.IdScheme.GivesTexts (scheme : Identifier.IdScheme) : Prop :=
  ∀ name id, scheme name = .ok id → ∃ text, id = .text text

theorem Identifier.defaultScheme_givesTexts : Identifier.defaultScheme.GivesTexts := by
  intro name id named
  cases name with
  | text s =>
    cases named
    exact ⟨_, rfl⟩
  | _ => cases named

theorem exists_texts {ids : List Value} (texts : ∀ id ∈ ids, ∃ text, id = .text text) :
    ∃ names : List String, ids = names.map .text := by
  induction ids with
  | nil => exact ⟨[], rfl⟩
  | cons id rest ih =>
    obtain ⟨text, rfl⟩ := texts id List.mem_cons_self
    obtain ⟨names, rfl⟩ := ih fun other member => texts other (List.mem_cons_of_mem _ member)
    exact ⟨text :: names, rfl⟩

theorem resolvedGroups_texts {scheme : Identifier.IdScheme} (texts : scheme.GivesTexts)
    (groups functions : Entries Value) :
    ∀ g ∈ (resolvedGroups scheme groups functions).map Prod.snd, g.HasTextIds := by
  intro g member
  obtain ⟨group, -, rfl⟩ := mem_resolvedGroups member
  have each : ∀ id ∈ memberIds scheme functions group.1, ∃ text, id = .text text := by
    intro id among
    obtain ⟨function, -, named, -⟩ := (mem_memberIds_iff scheme functions group.1 id).mp among
    exact texts function.1 id named
  obtain ⟨names, listed⟩ := exists_texts each
  exact ⟨names, by rw [listed]⟩

/-- A build with resolved memberships does to the resources what emitting the groups of the roster does. -/
theorem build_of_roster (scheme : Identifier.IdScheme) (toHost : Bool) {groups functions : Value}
    (resources : Template.Collection) (resolved : (resolve scheme groups functions).fault? = none) :
    (build scheme toHost groups functions resources).reached.resources =
        (emit toHost ((resolve scheme groups functions).reached.groups.map Prod.snd)
          resources).reached.resources ∧
      (build scheme toHost groups functions resources).fault? =
        (emit toHost ((resolve scheme groups functions).reached.groups.map Prod.snd)
          resources).fault? := by
  unfold build
  simp only [resolved, and_self]

/-- A build with resolved memberships does to the resources what emitting the groups does. -/
theorem build_of_resolved (scheme : Identifier.IdScheme) (toHost : Bool)
    {groups functions : Entries Value} (resources : Template.Collection)
    (distinct : Entries.Distinct groups)
    (resolved : (resolve scheme (.map groups) (.map functions)).fault? = none) :
    (build scheme toHost (.map groups) (.map functions) resources).reached.resources =
        (emit toHost ((resolvedGroups scheme groups functions).map Prod.snd)
          resources).reached.resources ∧
      (build scheme toHost (.map groups) (.map functions) resources).fault? =
        (emit toHost ((resolvedGroups scheme groups functions).map Prod.snd) resources).fault? := by
  rw [← (resolve_spec scheme groups functions distinct).2 resolved]
  exact build_of_roster scheme toHost resources resolved

theorem build_of_unresolved (scheme : Identifier.IdScheme) (toHost : Bool)
    {groups functions : Entries Value} (resources : Template.Collection)
    (unresolved : (resolve scheme (.map groups) (.map functions)).fault? ≠ none) :
    (build scheme toHost (.map groups) (.map functions) resources).reached.resources = resources ∧
      (build scheme toHost (.map groups) (.map functions) resources).fault? ≠ none := by
  obtain ⟨fault, failed⟩ := Option.ne_none_iff_exists'.mp unresolved
  unfold build
  simp [failed, Progress.stop]

/-- A build succeeds when the memberships can be resolved and all steps taken. -/
theorem build_succeeds_iff {scheme : Identifier.IdScheme} (texts : scheme.GivesTexts)
    (toHost : Bool) {groups : Entries Value} (functions es : Entries Value)
    (distinct : Entries.Distinct groups) :
    (build scheme toHost (.map groups) (.map functions) ⟨.map es⟩).fault? = none ↔
      (resolve scheme (.map groups) (.map functions)).fault? = none ∧
        Admitted es.names (plan ((resolvedGroups scheme groups functions).map Prod.snd)) := by
  by_cases resolved : (resolve scheme (.map groups) (.map functions)).fault? = none
  · rw [(build_of_resolved scheme toHost ⟨.map es⟩ distinct resolved).2,
      emit_succeeds_iff toHost _ es (resolvedGroups_texts texts groups functions)]
    exact ⟨fun admitted => ⟨resolved, admitted⟩, And.right⟩
  · have failed := (build_of_unresolved scheme toHost ⟨.map es⟩ resolved).2
    exact ⟨fun succeeded => absurd succeeded failed, fun both => absurd both.1 resolved⟩

theorem build_added {scheme : Identifier.IdScheme} (texts : scheme.GivesTexts) (toHost : Bool)
    {groups functions es : Entries Value} (distinct : Entries.Distinct groups)
    (succeeded :
      (build scheme toHost (.map groups) (.map functions) ⟨.map es⟩).fault? = none) :
    (build scheme toHost (.map groups) (.map functions) ⟨.map es⟩).reached.resources =
      ⟨.map (es ++ Entries.ofNamed
        (linked [] (fresh es.names
          (items ((resolvedGroups scheme groups functions).map Prod.snd)))))⟩ := by
  have resolved := ((build_succeeds_iff texts toHost functions es distinct).mp succeeded).1
  obtain ⟨same, outcome⟩ := build_of_resolved scheme toHost ⟨.map es⟩ distinct resolved
  rw [same]
  exact emit_added toHost es (resolvedGroups_texts texts groups functions) (outcome ▸ succeeded)

/-- Declared groups, one with a policy only and one with a role, too. -/
def declaredGroups : Entries Value :=
  [(.text "api", .object [("policy", .object [("principals",
      .list [.int 111111111111, .text "222222222222"])])]),
    (.text "admin", .object [("policy", .object [("principals", .text "222222222222")]),
      ("role", .object [("name", .text "ops"), ("principals", .text "111111111111")])])]

theorem declaredGroups_distinct : Entries.Distinct declaredGroups := by
  unfold Entries.Distinct
  decide

/-- Functions that join groups, and one that joins none. -/
def declaredFunctions : Entries Value :=
  [(.text "load", .object [("allowAccess", .list [.text "api", .text "admin"])]),
    (.text "store_all", .object [("allowAccess", .text "admin")]), (.text "idle", .null)]

end AccessGroups
